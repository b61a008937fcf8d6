/-
  Proofs/Go/Check.lean --- the check of a text accepts exactly the texts that pass for Go.

  A piece is read from code to code, and the text behind it is judged as if it began there
  (`reads_piece`).  A text that shows no fault begins with a piece (`exists_piece`).  By induction over
  the text both together turn the lexer's verdict into one about pieces (`valid_checkString_iff`).
-/
import Mathlib.Data.List.TakeWhile
import Recast.Proofs.Go.Grammar
import Recast.Proofs.Go.Package

set_option autoImplicit false

namespace Recast.Go.Lexer

/-! ## Reading tokens -/

/-- The state after a character that shows, as far as tokens are concerned. -/
def glance (l : Lexer) (c : Char) : Lexer :=
  if Text.isWordChar c then { l with word := l.word ++ [c] }
  else if Text.isBlank c then l.endWord
  else l.endWord.token [c]

/-- The state after characters that show. -/
def glances (l : Lexer) (cs : List Char) : Lexer := cs.foldl glance l

theorem glances_cons (l : Lexer) (c : Char) (cs : List Char) :
    l.glances (c :: cs) = (l.glance c).glances cs := rfl

theorem glances_append (l : Lexer) (cs ds : List Char) :
    l.glances (cs ++ ds) = (l.glances cs).glances ds := List.foldl_append

/-- Two states that know the same tokens. -/
def SameTokens (l m : Lexer) : Prop := l.head = m.head ∧ l.word = m.word

namespace SameTokens

variable {l m n : Lexer}

theorem refl (l : Lexer) : SameTokens l l := ⟨rfl, rfl⟩

theorem symm (h : SameTokens l m) : SameTokens m l := ⟨h.1.symm, h.2.symm⟩

theorem trans (h : SameTokens l m) (h' : SameTokens m n) : SameTokens l n :=
  ⟨h.1.trans h'.1, h.2.trans h'.2⟩

theorem token (h : SameTokens l m) (t : List Char) : SameTokens (l.token t) (m.token t) := by
  unfold Lexer.token
  rw [h.1]
  split
  · exact ⟨rfl, h.2⟩
  · exact h

theorem endWord (h : SameTokens l m) : SameTokens l.endWord m.endWord := by
  unfold Lexer.endWord
  rw [h.2]
  split
  · exact h
  · exact token (l := { l with word := [] }) (m := { m with word := [] }) ⟨h.1, rfl⟩ _

theorem glance (h : SameTokens l m) (c : Char) : SameTokens (l.glance c) (m.glance c) := by
  unfold Lexer.glance
  split
  · exact ⟨h.1, congrArg (· ++ [c]) h.2⟩
  · split
    · exact h.endWord
    · exact h.endWord.token _

theorem glances (h : SameTokens l m) (cs : List Char) :
    SameTokens (l.glances cs) (m.glances cs) := by
  induction cs generalizing l m with
  | nil => exact h
  | cons c cs ih => exact ih (h.glance c)

theorem firstTokens (h : SameTokens l m) : l.firstTokens = m.firstTokens := by
  rw [Lexer.firstTokens, Lexer.firstTokens, h.1, h.2]

end SameTokens

theorem glances_word {l : Lexer} {w : List Char} (h : ∀ c ∈ w, Text.isWordChar c = true) :
    l.glances w = { l with word := l.word ++ w } := by
  induction w generalizing l with
  | nil => simp [glances]
  | cons c w ih =>
    have hc : l.glance c = { l with word := l.word ++ [c] } := by
      rw [glance, if_pos (h c (.head _))]
    rw [glances_cons, hc, ih fun d hd => h d (.tail _ hd)]
    simp

theorem endWord_of_word {l : Lexer} (h : l.word = []) : l.endWord = l := by
  rw [endWord, if_pos (by simp [h])]

/-- A word that has been read is a token as soon as something else follows. -/
theorem glance_endWord (l : Lexer) {c : Char} (h : Text.isWordChar c = false) :
    l.endWord.glance c = l.glance c := by
  simp only [glance, h, Bool.false_eq_true, if_false, endWord_of_word (word_endWord l)]

/-- A token counts if it is one of the first two. -/
theorem take_head_token_append (l : Lexer) (t : List Char) (ts : List (List Char)) :
    ((l.token t).head ++ ts).take 2 = (l.head ++ t :: ts).take 2 := by
  by_cases hfull : l.head.length < 2
  · simp [token, hfull]
  · have htwo : 2 ≤ l.head.length := Nat.le_of_not_lt hfull
    rw [head_token htwo, List.take_append_of_le_length htwo, List.take_append_of_le_length htwo]

/-- The first two tokens are those of the characters that show. -/
theorem firstTokens_glances {l : Lexer} (hword : l.word = []) (cs : List Char) :
    (l.glances cs).firstTokens.take 2 = (l.head ++ tokens cs).take 2 := by
  fun_induction tokens cs generalizing l with
  | case1 => simp [glances, firstTokens, hword]
  | case2 c cs hc ih =>
    let run := c :: cs.takeWhile Text.isWordChar
    have hrun : ∀ d ∈ run, Text.isWordChar d = true := by
      intro d hd
      rcases List.mem_cons.1 hd with rfl | hd
      · exact hc
      · exact List.mem_takeWhile_imp hd
    have hsplit : c :: cs = run ++ cs.dropWhile Text.isWordChar := by
      rw [List.cons_append, List.takeWhile_append_dropWhile]
    have hread : l.glances run = { l with word := run } := by
      rw [glances_word hrun, hword, List.nil_append]
    have htoken : ({ l with word := run } : Lexer).endWord = l.token run := by
      rw [endWord, if_neg (by simp [run]), ← hword]
    have hafter : (l.token run).word = [] := (word_token _ _).trans hword
    rw [hsplit, glances_append, hread]
    cases hrest : cs.dropWhile Text.isWordChar with
    | nil => simp [glances, firstTokens, tokens, run]
    | cons d rest =>
      have hd : Text.isWordChar d = false := by
        simpa [hrest] using List.head_dropWhile_not Text.isWordChar (l := cs) (by simp [hrest])
      rw [glances_cons, ← glance_endWord _ hd, htoken, ← glances_cons, ← hrest, ih hafter,
        take_head_token_append]
  | case3 c cs hc hblank ih =>
    rw [glances_cons, glance, if_neg hc, if_pos hblank, endWord_of_word hword]
    exact ih hword
  | case4 c cs hc hblank ih =>
    have hafter : (l.token [c]).word = [] := (word_token _ _).trans hword
    rw [glances_cons, glance, if_neg hc, if_neg hblank, endWord_of_word hword, ih hafter,
      take_head_token_append]

/-! ## Inside literals and comments -/

/-- Inside a literal between two of the given quotes. -/
def inQuotes (quote : Char) (escaped : Bool) : Mode :=
  if quote = '"' then .interpreted escaped else .rune escaped

/-- What a literal between two of the given quotes is called. -/
def kindOf (quote : Char) : String := if quote = '"' then "string literal" else "rune literal"

theorem stepMode_inQuotes {l : Lexer} {quote : Char} (hquote : quote = '"' ∨ quote = '\'')
    {escaped : Bool} (hl : l.mode = inQuotes quote escaped) (c : Char) :
    l.stepMode c = l.quoted quote (kindOf quote) (inQuotes quote) escaped c := by
  rcases hquote with rfl | rfl
  · have hmode : l.mode = .interpreted escaped := hl
    simp only [stepMode, hmode]
    rfl
  · have hmode : l.mode = .rune escaped := hl
    simp only [stepMode, hmode]
    rfl

/-- A character in quotes that ends neither the literal nor the line. -/
theorem step_inQuotes {l : Lexer} {quote : Char} (hquote : quote = '"' ∨ quote = '\'')
    {escaped : Bool} (hl : l.mode = inQuotes quote escaped) {c : Char} (hline : c ≠ '\n')
    (hend : c ≠ quote ∨ escaped = true) :
    l.step c = { l with mode := inQuotes quote (!escaped && c == '\\') } := by
  have hopen : ¬(c = quote ∧ escaped = false) := by
    rintro ⟨rfl, rfl⟩
    simp at hend
  rw [step_of_ne_newline l hline, stepMode_inQuotes hquote hl, quoted, if_neg hline, if_neg hopen]

theorem step_endQuotes {l : Lexer} {quote : Char} (hquote : quote = '"' ∨ quote = '\'')
    (hl : l.mode = inQuotes quote false) : l.step quote = { l with mode := .code } := by
  have hline : quote ≠ '\n' := by
    rcases hquote with rfl | rfl <;> decide
  rw [step_of_ne_newline l hline, stepMode_inQuotes hquote hl, quoted, if_neg hline,
    if_pos ⟨rfl, rfl⟩]

/-- What stands between two quotes leaves no trace. -/
theorem feed_quotedBody {l : Lexer} {quote : Char} (hquote : quote = '"' ∨ quote = '\'')
    (hl : l.mode = inQuotes quote false) {body : List Char} (h : QuotedBody quote body) :
    l.feed body = l := by
  induction h with
  | nil => rfl
  | @plain c body hend hescape hline _ ih =>
    have hstep : l.step c = l := by
      rw [step_inQuotes hquote hl hline (.inl hend), beq_false_of_ne hescape, Bool.and_false, ← hl]
    rw [feed_cons, hstep, ih]
  | @escaped c body hline _ ih =>
    have hne : '\\' ≠ quote := by
      rcases hquote with rfl | rfl <;> decide
    have hescape : l.step '\\' = { l with mode := inQuotes quote true } :=
      step_inQuotes hquote hl (by decide) (.inl hne)
    have hback : ({ l with mode := inQuotes quote true } : Lexer).step c = l := by
      rw [step_inQuotes hquote rfl hline (.inr rfl), Bool.not_true, Bool.false_and, ← hl]
    rw [feed_cons, feed_cons, hescape, hback, ih]

theorem feed_rawBody {l : Lexer} (hl : l.mode = .raw) {body : List Char} (h : '\x60' ∉ body) :
    ∃ line, l.feed body = { l with line } := by
  induction body generalizing l with
  | nil => exact ⟨l.line, rfl⟩
  | cons c body ih =>
    have hc : c ≠ '\x60' := (List.ne_of_not_mem_cons h).symm
    have hstep : ∃ line, l.step c = { l with line } := by
      simp only [step, stepMode, hl, if_neg hc]
      split
      · exact ⟨_, rfl⟩
      · exact ⟨l.line, by rw [← hl]⟩
    obtain ⟨line, hstep⟩ := hstep
    obtain ⟨line', hfeed⟩ := ih (l := l.step c) (by rw [hstep]; exact hl)
      (List.not_mem_of_not_mem_cons h)
    exact ⟨line', by rw [feed_cons, hfeed, hstep]⟩

/-- The character that was read last, if what follows it depends on it. -/
def pending (c : Char) (last : Bool) : List Char := if last then [c] else []

theorem step_blockComment {l : Lexer} {star : Bool} (hl : l.mode = .blockComment star) {c : Char}
    (h : ¬['*', '/'] <:+: pending '*' star ++ [c]) :
    ∃ line, l.step c = { l with line, mode := .blockComment (c == '*') } := by
  have hopen : ¬(star = true ∧ c = '/') := by
    rintro ⟨rfl, rfl⟩
    exact h (List.infix_refl _)
  simp only [step, stepMode, hl, if_neg hopen]
  split
  · exact ⟨_, rfl⟩
  · exact ⟨l.line, rfl⟩

/-- What stands between the stars of a comment leaves no trace but the line and the last star. -/
theorem feed_blockBody {l : Lexer} {star : Bool} (hl : l.mode = .blockComment star)
    {body : List Char} (h : ¬['*', '/'] <:+: pending '*' star ++ body) :
    ∃ line star', l.feed body = { l with line, mode := .blockComment star' } := by
  induction body generalizing l star with
  | nil => exact ⟨l.line, star, by rw [feed_nil, ← hl]⟩
  | cons c body ih =>
    have hfirst : ¬['*', '/'] <:+: pending '*' star ++ [c] := by
      intro hinner
      rw [List.append_cons] at h
      exact h (hinner.trans (List.prefix_append _ _).isInfix)
    have hrest : ¬['*', '/'] <:+: pending '*' (c == '*') ++ body := by
      intro hinner
      have hsuffix : pending '*' (c == '*') ++ body <:+ pending '*' star ++ c :: body := by
        refine List.IsSuffix.trans ?_ (List.suffix_append _ _)
        by_cases hc : c = '*'
        · rw [hc]
          exact List.suffix_refl _
        · rw [beq_false_of_ne hc]
          exact List.suffix_cons _ _
      exact h (hinner.trans hsuffix.isInfix)
    obtain ⟨line, hstep⟩ := step_blockComment hl hfirst
    obtain ⟨line', star', hfeed⟩ := ih (l := l.step c) (by rw [hstep]) hrest
    exact ⟨line', star', by rw [feed_cons, hfeed, hstep]⟩

/-! ## Reading a piece -/

/-- A state in code behind a piece that was read from another one. -/
structure Past (l : Lexer) (p : Piece) (m : Lexer) : Prop where
  mode : m.mode = .code
  tokens : SameTokens (l.glances p.shown) m
  fitting : ∀ opened, nest l.kinds p.delimiters = some opened →
    m.kinds = opened ∧ m.diagnostics = l.diagnostics
  faulty : nest l.kinds p.delimiters = none → m.diagnostics ≠ []

/-- A piece that is no delimiter opens nothing, closes nothing and is no fault. -/
theorem Past.of_quiet {l : Lexer} {p : Piece} {m : Lexer} (hp : p.delimiters = [])
    (hmode : m.mode = .code) (htokens : SameTokens (l.glances p.shown) m)
    (hkinds : m.kinds = l.kinds) (hdiagnostics : m.diagnostics = l.diagnostics) : Past l p m := by
  refine ⟨hmode, htokens, ?_, ?_⟩
  · intro opened h
    rw [hp, nest_nil, Option.some.injEq] at h
    exact ⟨hkinds.trans h, hdiagnostics⟩
  · intro h
    rw [hp, nest_nil] at h
    cases h

/-- A character in code other than a slash counts for the tokens as it shows. -/
theorem sameTokens_step {l : Lexer} (hl : l.mode = .code) {c : Char} (hslash : c ≠ '/') :
    SameTokens (l.glance c) (l.step c) := by
  have hmark : SameTokens l.endWord (l.endWord.mark c) :=
    ⟨(head_mark c _).symm, (word_mark c _).symm⟩
  have hcode : SameTokens (l.glance c) (l.code c) := by
    unfold glance code
    split
    · exact .refl _
    · dsimp only
      split
      · exact hmark
      · exact hmark.token _
  unfold step
  rw [stepMode_of_code hl]
  dsimp only
  split
  · exact ⟨hcode.1, hcode.2⟩
  · exact hcode

/-- The state after a character in code other than a slash and the parts of words. -/
theorem alike_step_of_mark {l : Lexer} (hl : l.mode = .code) {c : Char}
    (hword : Text.isWordChar c = false) (hslash : c ≠ '/') (hline : c ≠ '\n') :
    Alike (l.mark c) (l.step c) := by
  rw [step_of_ne_newline l hline, stepMode_of_code hl]
  exact alike_code_of_mark l hword hslash

theorem alike_step_quote {l : Lexer} (hl : l.mode = .code) {quote : Char}
    (hquote : quote = '"' ∨ quote = '\'') :
    Alike (l.beginLiteral (inQuotes quote false)) (l.step quote) := by
  rcases hquote with rfl | rfl
  · exact alike_step_of_mark (c := '"') hl (by decide) (by decide) (by decide)
  · exact alike_step_of_mark (c := '\'') hl (by decide) (by decide) (by decide)

theorem alike_step_backtick {l : Lexer} (hl : l.mode = .code) :
    Alike (l.beginLiteral .raw) (l.step '\x60') :=
  alike_step_of_mark (c := '\x60') hl (by decide) (by decide) (by decide)

theorem feed_quoted {l : Lexer} (hl : l.mode = .code) {quote : Char} {body rest : List Char}
    (h : (Piece.quoted quote body).Fits rest) :
    l.feed (Piece.quoted quote body).text = { l.step quote with mode := .code } := by
  obtain ⟨hquote, hbody⟩ := h
  obtain ⟨head, word, hstep⟩ := alike_step_quote hl hquote
  have hmode : (l.step quote).mode = inQuotes quote false := by rw [hstep]; rfl
  rw [Piece.text, feed_cons, feed_append, feed_quotedBody hquote hmode hbody, feed_cons, feed_nil,
    step_endQuotes hquote hmode]

theorem past_quoted {l : Lexer} (hl : l.mode = .code) {quote : Char} {body rest : List Char}
    (h : (Piece.quoted quote body).Fits rest) :
    Past l (.quoted quote body) (l.feed (Piece.quoted quote body).text) := by
  have hslash : quote ≠ '/' := by
    rcases h.1 with rfl | rfl <;> decide
  have htokens := sameTokens_step hl hslash
  obtain ⟨head, word, hstep⟩ := alike_step_quote hl h.1
  rw [feed_quoted hl h]
  exact .of_quiet rfl rfl ⟨htokens.1, htokens.2⟩ (by rw [hstep]; rfl) (by rw [hstep]; rfl)

theorem feed_raw {l : Lexer} (hl : l.mode = .code) {body rest : List Char}
    (h : (Piece.raw body).Fits rest) :
    ∃ line, l.feed (Piece.raw body).text = { l.step '\x60' with line, mode := .code } := by
  obtain ⟨head, word, hstep⟩ := alike_step_backtick hl
  have hmode : (l.step '\x60').mode = .raw := by rw [hstep]; rfl
  obtain ⟨line, hbody⟩ := feed_rawBody hmode h
  refine ⟨line, ?_⟩
  rw [Piece.text, feed_cons, feed_append, hbody, feed_cons, feed_nil,
    step_of_ne_newline _ (by decide)]
  simp only [stepMode, hmode, if_true]

theorem past_raw {l : Lexer} (hl : l.mode = .code) {body rest : List Char}
    (h : (Piece.raw body).Fits rest) : Past l (.raw body) (l.feed (Piece.raw body).text) := by
  have htokens := sameTokens_step (c := '\x60') hl (by decide)
  obtain ⟨head, word, hstep⟩ := alike_step_backtick hl
  obtain ⟨line, hfeed⟩ := feed_raw hl h
  rw [hfeed]
  exact .of_quiet rfl rfl ⟨htokens.1, htokens.2⟩ (by rw [hstep]; rfl) (by rw [hstep]; rfl)

/-- The state in a comment between stars that begins here. -/
def inBlockComment (l : Lexer) : Lexer :=
  { l.endWord with literalLine := l.endWord.line, mode := .blockComment false }

theorem feed_beginBlockComment {l : Lexer} (hl : l.mode = .code) :
    l.feed ['/', '*'] = l.inBlockComment := by
  rw [feed_cons, feed_cons, feed_nil, step_slash hl, step_of_ne_newline _ (by decide)]
  rfl

theorem feed_blockComment {l : Lexer} (hl : l.mode = .code) {body rest : List Char}
    (h : (Piece.blockComment body).Fits rest) :
    ∃ line, l.feed (Piece.blockComment body).text = { l.inBlockComment with line, mode := .code } := by
  obtain ⟨line, star, hbody⟩ := feed_blockBody (l := l.inBlockComment) rfl h
  have hstar : ¬['*', '/'] <:+: pending '*' star ++ ['*'] := by
    cases star <;> decide
  obtain ⟨line', hlast⟩ :=
    step_blockComment (l := { l.inBlockComment with line, mode := .blockComment star }) rfl hstar
  have htext : (Piece.blockComment body).text = ['/', '*'] ++ (body ++ ['*', '/']) := rfl
  refine ⟨line', ?_⟩
  rw [htext, feed_append, feed_beginBlockComment hl, feed_append, hbody, feed_cons, hlast, feed_cons,
    feed_nil, step_of_ne_newline _ (by decide)]
  rfl

theorem past_blockComment {l : Lexer} (hl : l.mode = .code) {body rest : List Char}
    (h : (Piece.blockComment body).Fits rest) :
    Past l (.blockComment body) (l.feed (Piece.blockComment body).text) := by
  obtain ⟨line, hfeed⟩ := feed_blockComment hl h
  have halike := Alike.endWord l
  rw [hfeed]
  refine .of_quiet rfl rfl (.refl l.endWord) ?_ halike.diagnostics_eq
  obtain ⟨head, word, hend⟩ := halike
  change l.endWord.kinds = l.kinds
  rw [hend]
  rfl

/-- A delimiter changes the open ones as `nestOne` says, or is a fault. -/
theorem mark_of_delimiter (l : Lexer) {c : Char} (h : isOpener c = true ∨ isCloser c = true) :
    (∃ stack opened, l.mark c = { l with stack, opened } ∧
      nestOne l.kinds c = some (stack.map Prod.fst)) ∨
    ∃ fault, l.mark c = l.report fault ∧ nestOne l.kinds c = none := by
  have hplain : c ≠ '"' ∧ c ≠ '\'' ∧ c ≠ '\x60' := by
    simp only [isOpener, isCloser, Bool.or_eq_true, beq_iff_eq] at h
    rcases h with ((rfl | rfl) | rfl) | ((rfl | rfl) | rfl) <;> decide
  obtain ⟨hstring, hrune, hraw⟩ := hplain
  simp only [mark, if_neg hstring, if_neg hrune, if_neg hraw]
  cases hopener : isOpener c with
  | true => exact .inl ⟨_, _, rfl, nestOne_opener hopener _⟩
  | false =>
    have hcloser : isCloser c = true := h.resolve_left (by simp [hopener])
    simp only [hcloser, close, nestOne, kinds, hopener, if_true, Bool.false_eq_true, if_false]
    cases hstack : l.stack with
    | nil => exact .inr ⟨_, rfl, rfl⟩
    | cons top stack =>
      by_cases hmatch : top.1 = openerOf c
      · simp only [List.map_cons, if_pos hmatch]
        exact .inl ⟨stack, l.opened, rfl, rfl⟩
      · simp only [List.map_cons, if_neg hmatch]
        exact .inr ⟨_, rfl, trivial⟩

theorem past_delimiter {l : Lexer} (hl : l.mode = .code) {c : Char} {rest : List Char}
    (h : (Piece.delimiter c).Fits rest) :
    Past l (.delimiter c) (l.feed (Piece.delimiter c).text) := by
  have hplain : Text.isWordChar c = false ∧ c ≠ '/' ∧ c ≠ '\n' := by
    simp only [Piece.Fits, isOpener, isCloser, Bool.or_eq_true, beq_iff_eq] at h
    rcases h with ((rfl | rfl) | rfl) | ((rfl | rfl) | rfl) <;> decide
  obtain ⟨hword, hslash, hline⟩ := hplain
  have htokens := sameTokens_step hl hslash
  have hnest : nest l.kinds (Piece.delimiter c).delimiters = nestOne l.kinds c := by
    rw [Piece.delimiters, nest_cons]
    exact Option.bind_fun_some _
  change Past l (.delimiter c) (l.step c)
  obtain ⟨head, word, hstep⟩ := alike_step_of_mark hl hword hslash hline
  rcases mark_of_delimiter l h with ⟨stack, opened, hmark, hopened⟩ | ⟨fault, hmark, hnone⟩
  · rw [hmark] at hstep
    refine ⟨by rw [hstep]; exact hl, htokens, ?_, ?_⟩
    · intro after heq
      rw [hnest, hopened, Option.some.injEq] at heq
      rw [hstep, ← heq]
      exact ⟨rfl, rfl⟩
    · intro heq
      rw [hnest, hopened] at heq
      cases heq
  · rw [hmark] at hstep
    refine ⟨by rw [hstep]; exact hl, htokens, ?_, ?_⟩
    · intro after heq
      rw [hnest, hnone] at heq
      cases heq
    · intro _
      simp [hstep, withTokens, report]

theorem past_other {l : Lexer} (hl : l.mode = .code) {c : Char} {rest : List Char}
    (h : (Piece.other c).Fits rest) (hslash : c ≠ '/') :
    Past l (.other c) (l.feed (Piece.other c).text) := by
  obtain ⟨hopener, hcloser, hstring, hrune, hraw, -⟩ := h
  have hinert : isInert c = true := by
    simp [isInert, hopener, hcloser, hstring, hrune, hraw, hslash]
  obtain ⟨head, word, hcode⟩ := alike_code_of_isInert l hinert
  have hmode := mode_step l c
  have hstack := stack_step l c
  have hdiagnostics := diagnostics_step l c
  rw [stepMode_of_code hl, hcode] at hmode hstack hdiagnostics
  change Past l (.other c) (l.step c)
  refine .of_quiet rfl (hmode.trans hl) (sameTokens_step hl hslash) ?_ hdiagnostics
  rw [kinds, hstack]
  rfl

/-- Behind a comment to the end of its line everything is as if the comment were not there. -/
theorem past_lineComment {l : Lexer} (hl : l.mode = .code) (body : List Char) :
    Past l (.lineComment body) l.endWord := by
  have halike := Alike.endWord l
  have hdiagnostics := halike.diagnostics_eq
  obtain ⟨head, word, hend⟩ := halike
  refine .of_quiet rfl ?_ (.refl l.endWord) ?_ hdiagnostics
  · rw [hend]
    exact hl
  · rw [hend]
    rfl

/-- A slash that begins no comment is a token of its own. -/
theorem past_slash {l : Lexer} (hl : l.mode = .code) :
    Past l (.other '/') (l.endWord.token ['/']) := by
  have halike := (Alike.endWord l).trans (.token ['/'] l.endWord)
  have hdiagnostics := halike.diagnostics_eq
  obtain ⟨head, word, htoken⟩ := halike
  refine .of_quiet rfl ?_ (.refl _) ?_ hdiagnostics
  · rw [htoken]
    exact hl
  · rw [htoken]
    rfl

/-- Two states in which a text that ends there is judged alike. -/
structure EndsLike (l m : Lexer) : Prop where
  finish : l.finish = m.finish
  package : l.packageName = m.packageName

theorem EndsLike.refl (l : Lexer) : EndsLike l l := ⟨rfl, rfl⟩

theorem endsLike_lineComment {l : Lexer} (hl : l.mode = .code) {body rest : List Char}
    (h : (Piece.lineComment body).Fits rest) :
    EndsLike (l.feed ((Piece.lineComment body).text ++ rest)) (l.endWord.feed rest) := by
  obtain ⟨hbody, hrest⟩ := h
  have hmode : l.endWord.mode = .code := (past_lineComment hl body).mode
  have hfeed : l.feed (Piece.lineComment body).text = { l.endWord with mode := .lineComment } := by
    have hbegin : (l.step '/').step '/' = { l.endWord with mode := .lineComment } := by
      rw [step_slash hl, step_of_ne_newline _ (by decide)]
      rfl
    rw [Piece.text, feed_cons, feed_cons, hbegin, feed_of_lineComment rfl hbody]
  rw [feed_append, hfeed]
  cases rest with
  | nil => exact ⟨by simp only [feed_nil, Lexer.finish, hmode, openLiteral], rfl⟩
  | cons c rest =>
    have hc : c = '\n' := by simpa using hrest
    have hstep : ({ l.endWord with mode := .lineComment } : Lexer).step '\n' =
        l.endWord.step '\n' := by
      rw [step_newline hmode, endWord_of_word (word_endWord l)]
      simp [step, stepMode, hmode]
    rw [feed_cons, feed_cons, hc, hstep]
    exact .refl _

/-- No package clause can tell whether a slash at the end of a text is a token. -/
theorem packageName_slash {l : Lexer} (hword : l.word = []) :
    (l.token ['/']).packageName = l.packageName := by
  have htokens (m : Lexer) (hm : m.word = []) : m.firstTokens = m.head := by
    simp [firstTokens, hm]
  rw [packageName, packageName, htokens _ ((word_token _ _).trans hword), htokens l hword, token]
  rcases hhead : l.head with _ | ⟨keyword, _ | ⟨name, rest⟩⟩
  · rfl
  · have hslash : isIdentifier ['/'] = false := by decide
    simp [hslash]
  · rw [if_neg (by simp), hhead]

theorem endsLike_slash {l : Lexer} (hl : l.mode = .code) {rest : List Char}
    (h : (Piece.other '/').Fits rest) :
    EndsLike (l.feed ((Piece.other '/').text ++ rest)) ((l.endWord.token ['/']).feed rest) := by
  have hmode : l.endWord.mode = .code := (past_lineComment hl []).mode
  have hfeed : l.feed (Piece.other '/').text = { l.endWord with mode := .slash } := step_slash hl
  have hcode : ({ l.endWord with mode := .code } : Lexer) = l.endWord := by rw [← hmode]
  rw [feed_append, hfeed]
  cases rest with
  | nil =>
    refine ⟨?_, (packageName_slash (word_endWord l)).symm⟩
    rw [feed_nil, feed_nil, (Alike.token _ _).finish_eq]
    simp only [Lexer.finish, hmode, openLiteral]
  | cons c rest =>
    obtain ⟨-, -, -, -, -, hnext⟩ := h
    obtain ⟨hline, hblock⟩ : c ≠ '/' ∧ c ≠ '*' := by simpa using hnext rfl
    have hstep : ({ l.endWord with mode := .slash } : Lexer).step c =
        (l.endWord.token ['/']).step c := by
      have hboth : ({ l.endWord with mode := .slash } : Lexer).stepMode c =
          (l.endWord.token ['/']).stepMode c := by
        rw [stepMode_of_code (past_slash hl).mode]
        simp only [stepMode, if_neg hline, if_neg hblock, hcode]
      rw [step, step, hboth]
    rw [feed_cons, feed_cons, hstep]
    exact .refl _

/-- A piece is read from code to code, and the text behind it as if it began there. -/
theorem reads_piece {l : Lexer} (hl : l.mode = .code) {p : Piece} {rest : List Char}
    (h : p.Fits rest) :
    ∃ m, Past l p m ∧ EndsLike (l.feed (p.text ++ rest)) (m.feed rest) := by
  have plain (hpast : Past l p (l.feed p.text)) :
      ∃ m, Past l p m ∧ EndsLike (l.feed (p.text ++ rest)) (m.feed rest) :=
    ⟨l.feed p.text, hpast, by rw [feed_append]; exact .refl _⟩
  cases p with
  | lineComment body => exact ⟨l.endWord, past_lineComment hl body, endsLike_lineComment hl h⟩
  | blockComment body => exact plain (past_blockComment hl h)
  | quoted quote body => exact plain (past_quoted hl h)
  | raw body => exact plain (past_raw hl h)
  | delimiter c => exact plain (past_delimiter hl h)
  | other c =>
    by_cases hslash : c = '/'
    · subst hslash
      exact ⟨_, past_slash hl, endsLike_slash hl h⟩
    · exact plain (past_other hl h hslash)

/-! ## Reading a text in pieces -/

/-- A text with a fault keeps it. -/
theorem finish_feed_ne_nil {l : Lexer} (h : l.diagnostics ≠ []) (cs : List Char) :
    (l.feed cs).finish ≠ [] := by
  intro hfinish
  have hprefix := prefix_feed l cs
  simp only [Lexer.finish, List.append_eq_nil_iff] at hfinish
  rw [hfinish.1.1] at hprefix
  exact h (List.prefix_nil.1 hprefix)

/-- The end of a text in code is a fault exactly if a delimiter is open. -/
theorem finish_eq_nil_iff_of_code {l : Lexer} (hl : l.mode = .code) (h : l.diagnostics = []) :
    l.finish = [] ↔ l.kinds = [] := by
  simp [Lexer.finish, hl, h, openLiteral, kinds]

/-- A text in pieces has no fault exactly if its delimiters close all that is open. -/
theorem finish_feed_eq_nil_iff {ps : List Piece} {text : List Char} (h : Cut ps text) {l : Lexer}
    (hl : l.mode = .code) (hsilent : l.diagnostics = []) :
    (l.feed text).finish = [] ↔ nest l.kinds (delimiters ps) = some [] := by
  induction h generalizing l with
  | nil =>
    rw [feed_nil, finish_eq_nil_iff_of_code hl hsilent]
    exact Option.some_inj.symm
  | @cons p ps rest hfits _ ih =>
    obtain ⟨m, hpast, hends⟩ := reads_piece hl hfits
    rw [hends.finish, show delimiters (p :: ps) = p.delimiters ++ delimiters ps from rfl,
      nest_append]
    cases hnest : nest l.kinds p.delimiters with
    | some opened =>
      obtain ⟨hkinds, hdiagnostics⟩ := hpast.fitting opened hnest
      rw [ih hpast.mode (hdiagnostics.trans hsilent), hkinds, Option.bind_some]
    | none =>
      rw [Option.bind_none]
      exact iff_of_false (finish_feed_ne_nil (hpast.faulty hnest) rest) (by simp)

/-- The package name of a text in pieces is found in what shows of it. -/
theorem packageName_feed {ps : List Piece} {text : List Char} (h : Cut ps text) {l m : Lexer}
    (hl : l.mode = .code) (hsame : SameTokens l m) :
    (l.feed text).packageName = (m.glances (shown ps)).packageName := by
  induction h generalizing l m with
  | nil => rw [feed_nil, packageName, packageName, hsame.firstTokens]; rfl
  | @cons p ps rest hfits _ ih =>
    obtain ⟨n, hpast, hends⟩ := reads_piece hl hfits
    have htokens : SameTokens n (m.glances p.shown) :=
      hpast.tokens.symm.trans (hsame.glances p.shown)
    rw [hends.package, ih hpast.mode htokens, ← glances_append]
    rfl

/-! ## Cutting a text -/

theorem finish_ne_nil_of_literal {l : Lexer} (h : (openLiteral l.mode).isSome = true) :
    l.finish ≠ [] := by
  obtain ⟨kind, hkind⟩ := Option.isSome_iff_exists.1 h
  simp [Lexer.finish, hkind]

theorem isSome_openLiteral_inQuotes (quote : Char) (escaped : Bool) :
    (openLiteral (inQuotes quote escaped)).isSome = true := by
  unfold inQuotes
  split <;> rfl

/-- A literal without a fault has an end.  A backslash counts to the text when it protects the
next character. -/
theorem exists_quotedBody {quote : Char} (hquote : quote = '"' ∨ quote = '\'') {cs : List Char}
    {l : Lexer} {escaped : Bool} (hl : l.mode = inQuotes quote escaped)
    (h : (l.feed cs).finish = []) :
    ∃ body rest, pending '\\' escaped ++ cs = body ++ quote :: rest ∧ QuotedBody quote body := by
  induction cs generalizing l escaped with
  | nil =>
    refine absurd h (finish_ne_nil_of_literal ?_)
    rw [feed_nil, hl]
    exact isSome_openLiteral_inQuotes quote escaped
  | cons c cs ih =>
    by_cases hline : c = '\n'
    · have hfault : (l.step c).diagnostics ≠ [] := by
        rw [diagnostics_step, stepMode_inQuotes hquote hl, quoted, if_pos hline]
        simp [breakLiteral, report]
      exact absurd h (finish_feed_ne_nil hfault cs)
    by_cases hend : c = quote ∧ escaped = false
    · obtain ⟨rfl, rfl⟩ := hend
      exact ⟨[], cs, rfl, .nil⟩
    have hgoes : c ≠ quote ∨ escaped = true := by
      rcases not_and_or.1 hend with hne | hescaped
      · exact .inl hne
      · exact .inr (by simpa using hescaped)
    have hstep := step_inQuotes hquote hl hline hgoes
    obtain ⟨body, rest, heq, hbody⟩ := ih (by rw [hstep]) h
    cases escaped with
    | true => exact ⟨'\\' :: c :: body, rest, congrArg ('\\' :: c :: ·) heq, .escaped hline hbody⟩
    | false =>
      by_cases hescape : c = '\\'
      · subst hescape
        exact ⟨body, rest, heq, hbody⟩
      · have hplain : cs = body ++ quote :: rest := by
          simpa [pending, hescape] using heq
        exact ⟨c :: body, rest, congrArg (c :: ·) hplain,
          .plain (hgoes.resolve_right Bool.noConfusion) hescape hline hbody⟩

/-- A text that contains another one contains it a first time. -/
theorem exists_first_infix {sought cs : List Char} (hne : sought ≠ []) (h : sought <:+: cs) :
    ∃ body rest, cs = body ++ (sought ++ rest) ∧ ¬sought <:+: body := by
  induction cs with
  | nil => exact absurd (List.eq_nil_of_infix_nil h) hne
  | cons c cs ih =>
    by_cases hhere : sought <+: c :: cs
    · obtain ⟨rest, heq⟩ := hhere
      exact ⟨[], rest, heq.symm, fun hnil => hne (List.eq_nil_of_infix_nil hnil)⟩
    · obtain ⟨body, rest, rfl, hbody⟩ := ih ((List.infix_cons_iff.1 h).resolve_left hhere)
      refine ⟨c :: body, rest, rfl, ?_⟩
      intro hagain
      rcases List.infix_cons_iff.1 hagain with hfirst | hlater
      · exact hhere (hfirst.trans (List.prefix_append (c :: body) _))
      · exact hbody hlater

theorem exists_blockBody {l : Lexer} (hl : l.mode = .blockComment false) {cs : List Char}
    (h : (l.feed cs).finish = []) :
    ∃ body rest, cs = body ++ ('*' :: '/' :: rest) ∧ ¬['*', '/'] <:+: body := by
  have hends : ['*', '/'] <:+: cs := by
    by_contra hinner
    obtain ⟨line, star, hfeed⟩ := feed_blockBody hl hinner
    refine finish_ne_nil_of_literal ?_ h
    rw [hfeed]
    rfl
  exact exists_first_infix (by simp) hends

theorem exists_rawBody {l : Lexer} (hl : l.mode = .raw) {cs : List Char}
    (h : (l.feed cs).finish = []) : ∃ body rest, cs = body ++ '\x60' :: rest ∧ '\x60' ∉ body := by
  apply List.eq_append_cons_of_mem
  by_contra hmem
  obtain ⟨line, hfeed⟩ := feed_rawBody hl hmem
  refine finish_ne_nil_of_literal ?_ h
  rw [hfeed, hl]
  rfl

/-- What is behind two slashes is a comment up to the end of its line. -/
theorem exists_lineComment (cs : List Char) :
    ∃ body rest, cs = body ++ rest ∧ (Piece.lineComment body).Fits rest := by
  refine ⟨cs.takeWhile (· != '\n'), cs.dropWhile (· != '\n'),
    List.takeWhile_append_dropWhile.symm, ?_, ?_⟩
  · intro hmem
    simpa using List.mem_takeWhile_imp hmem
  · cases hrest : cs.dropWhile (· != '\n') with
    | nil => exact .inl rfl
    | cons c rest =>
      have hc := List.head_dropWhile_not (· != '\n') (l := cs) (by simp [hrest])
      simp only [hrest, List.head_cons, bne_eq_false_iff_eq] at hc
      exact .inr (congrArg some hc)

/-- A text in code without a fault begins with a piece. -/
theorem exists_piece {l : Lexer} (hl : l.mode = .code) {c : Char} {cs : List Char}
    (h : (l.feed (c :: cs)).finish = []) :
    ∃ (p : Piece) (rest : List Char), c :: cs = p.text ++ rest ∧ p.Fits rest := by
  by_cases hquote : c = '"' ∨ c = '\''
  · obtain ⟨head, word, hstep⟩ := alike_step_quote hl hquote
    have hmode : (l.step c).mode = inQuotes c false := by rw [hstep]; rfl
    obtain ⟨body, rest, heq, hbody⟩ := exists_quotedBody hquote hmode h
    refine ⟨.quoted c body, rest, ?_, hquote, hbody⟩
    have hcs : cs = body ++ c :: rest := heq
    simp [Piece.text, hcs]
  by_cases hraw : c = '\x60'
  · subst hraw
    obtain ⟨head, word, hstep⟩ := alike_step_backtick hl
    have hmode : (l.step '\x60').mode = .raw := by rw [hstep]; rfl
    obtain ⟨body, rest, rfl, hbody⟩ := exists_rawBody hmode h
    exact ⟨.raw body, rest, by simp [Piece.text], hbody⟩
  by_cases hdelimiter : isOpener c = true ∨ isCloser c = true
  · exact ⟨.delimiter c, cs, rfl, hdelimiter⟩
  obtain ⟨hstring, hrune⟩ := not_or.1 hquote
  obtain ⟨hopener, hcloser⟩ := not_or.1 hdelimiter
  have hother (hslash : c = '/' → cs.head? ≠ some '/' ∧ cs.head? ≠ some '*') :
      ∃ (p : Piece) (rest : List Char), c :: cs = p.text ++ rest ∧ p.Fits rest :=
    ⟨.other c, cs, rfl, by simpa using hopener, by simpa using hcloser, hstring, hrune, hraw, hslash⟩
  by_cases hslash : c = '/'
  · subst hslash
    by_cases hline : cs.head? = some '/'
    · obtain ⟨cs, rfl⟩ := List.head?_eq_some_iff.1 hline
      obtain ⟨body, rest, rfl, hfits⟩ := exists_lineComment cs
      exact ⟨.lineComment body, rest, rfl, hfits⟩
    by_cases hblock : cs.head? = some '*'
    · obtain ⟨cs, rfl⟩ := List.head?_eq_some_iff.1 hblock
      have hmode : ((l.step '/').step '*').mode = .blockComment false := by
        rw [step_slash hl, step_of_ne_newline _ (by decide)]
        rfl
      obtain ⟨body, rest, rfl, hbody⟩ := exists_blockBody hmode h
      exact ⟨.blockComment body, rest, by simp [Piece.text], hbody⟩
    · exact hother fun _ => ⟨hline, hblock⟩
  · exact hother fun heq => absurd heq hslash

/-- A text in code without a fault can be cut into pieces. -/
theorem exists_cut {l : Lexer} (hl : l.mode = .code) {text : List Char}
    (h : (l.feed text).finish = []) : ∃ ps, Cut ps text := by
  induction hlength : text.length using Nat.strong_induction_on generalizing l text with
  | _ n ih =>
    cases text with
    | nil => exact ⟨[], .nil⟩
    | cons c cs =>
      obtain ⟨p, rest, heq, hfits⟩ := exists_piece hl h
      obtain ⟨m, hpast, hends⟩ := reads_piece hl hfits
      rw [heq, hends.finish] at h
      have hshorter : rest.length < n := by
        have htext : 0 < p.text.length := by cases p <;> simp [Piece.text]
        rw [← hlength, heq, List.length_append]
        omega
      obtain ⟨ps, hcut⟩ := ih rest.length hshorter hpast.mode h rfl
      rw [heq]
      exact ⟨p :: ps, .cons hfits hcut⟩

end Lexer

/-! ## The check -/

open Lexer (isIdentifier)

/-- A text has a package name exactly if its first tokens are a package clause. -/
theorem isSome_packageName_feed_iff {ps : List Piece} {text : List Char} (h : Cut ps text) :
    (Lexer.feed {} text).packageName.isSome = true ↔
      ∃ name rest, tokens (shown ps) = "package".toList :: name :: rest ∧
        isIdentifier name = true := by
  rw [Lexer.packageName_feed h rfl (.refl {}), Lexer.packageName_eq,
    Lexer.firstTokens_glances rfl, List.nil_append]
  rcases tokens (shown ps) with _ | ⟨keyword, _ | ⟨name, rest⟩⟩
  · simp
  · simp
  · simp only [List.take_succ_cons, List.take_zero]
    split
    · next hclause => simp [hclause]
    · next hclause =>
      refine iff_of_false (by simp) ?_
      rintro ⟨name', rest', heq, hname⟩
      cases heq
      exact hclause ⟨rfl, hname⟩

/-- A text with a package clause is not blank. -/
theorem allBlank_of_clause {ps : List Piece} {text name : List Char} {rest : List (List Char)}
    (h : Cut ps text) (hclause : tokens (shown ps) = "package".toList :: name :: rest) :
    Text.allBlank text = false := by
  have htoken : "package".toList ∈ tokens (shown ps) := hclause ▸ .head _
  have hshown : 'p' ∈ shown ps := mem_of_mem_tokens htoken (by decide)
  have hmem : 'p' ∈ text := h.mem_of_mem_shown hshown (by decide)
  have hblank : Text.isBlank 'p' = false := by decide
  simp only [Text.allBlank, List.all_eq_false]
  exact ⟨'p', hmem, by simp [hblank]⟩

theorem valid_check_iff (text : List Char) :
    (check text).valid = true ↔
      Text.allBlank text = false ∧ (Lexer.feed {} text).finish = [] ∧
        (Lexer.feed {} text).packageName.isSome = true := by
  unfold check CheckResult.valid
  cases Text.allBlank text with
  | true => simp
  | false =>
    dsimp only
    cases (Lexer.feed {} text).packageName <;> simp

/-- The check accepts exactly the texts that can be cut into pieces so that they pass for Go. -/
theorem valid_checkString_iff (text : String) :
    (checkString text).valid = true ↔ ∃ ps, IsGo ps text.toList := by
  rw [checkString, valid_check_iff]
  constructor
  · rintro ⟨-, hfinish, hpackage⟩
    obtain ⟨ps, hcut⟩ := Lexer.exists_cut rfl hfinish
    have hnest := (Lexer.finish_feed_eq_nil_iff hcut rfl rfl).1 hfinish
    have hnested := (nest_eq_nil_iff hcut.delimiters_spec).1 hnest
    exact ⟨ps, hcut, hnested, (isSome_packageName_feed_iff hcut).1 hpackage⟩
  · rintro ⟨ps, hgo⟩
    obtain ⟨name, rest, hclause, hname⟩ := hgo.clause
    have hnest := (nest_eq_nil_iff hgo.cut.delimiters_spec).2 hgo.nested
    have hfinish := (Lexer.finish_feed_eq_nil_iff hgo.cut (l := {}) rfl rfl).2 hnest
    exact ⟨allBlank_of_clause hgo.cut hclause, hfinish,
      (isSome_packageName_feed_iff hgo.cut).2 hgo.clause⟩

/-- A star cannot both begin and end a comment. -/
example : (checkString "package p /*/").valid = false ∧
    (checkString "package p /*/ */").valid = true := by
  decide +kernel

end Recast.Go
