/-
  Proofs/Go/Faults.lean --- where the faults of a text are.

  Every text, however malformed, can be cut into fragments: pieces, and literals and comments that are
  broken off (`exists_scan`).  A fragment is read from code to code and leaves a fault exactly if it is
  broken off or a closer that does not fit (`reads_fragment`).  By induction over the fragments the
  faults of a text are those of its fragments, on the lines where these begin, and its openers that stay
  open (`finish_feed_scan`).
-/
import Recast.Proofs.Go.Check
import Recast.Proofs.Go.Openers
import Recast.Proofs.Text.Lines

set_option autoImplicit false

namespace Recast.Go

open Lexer (isOpener isCloser openerOf kindOf inQuotes pending)

/-! ## Fragments -/

/-- What may stand behind the quote of a literal that is broken off.  A backslash takes the next
character with it, if that does not end the line. -/
inductive BrokenBody (quote : Char) : List Char → Prop where
  | nil : BrokenBody quote []
  | backslash : BrokenBody quote ['\\']
  | plain {c : Char} {body : List Char} (hquote : c ≠ quote) (hescape : c ≠ '\\')
      (hline : c ≠ '\n') : BrokenBody quote body → BrokenBody quote (c :: body)
  | escaped {c : Char} {body : List Char} (hline : c ≠ '\n') :
      BrokenBody quote body → BrokenBody quote ('\\' :: c :: body)

/-- A part of a text that need not be well-formed. -/
inductive Fragment where
  | whole (p : Piece)
  /-- A string or a character literal that the end of its line or of the text breaks off. -/
  | brokenQuoted (quote : Char) (body : List Char)
  /-- A string between backticks that has no end. -/
  | brokenRaw (body : List Char)
  /-- A comment between stars that has no end. -/
  | brokenComment (body : List Char)

namespace Fragment

/-- How a fragment is written. -/
def text : Fragment → List Char
  | whole p => p.text
  | brokenQuoted quote body => quote :: body
  | brokenRaw body => '\x60' :: body
  | brokenComment body => '/' :: '*' :: body

/-- Whether something is a fragment when the given text follows it. -/
def Fits : Fragment → List Char → Prop
  | whole p, rest => p.Fits rest
  | brokenQuoted quote body, rest =>
    (quote = '"' ∨ quote = '\'') ∧ BrokenBody quote body ∧ (rest = [] ∨ rest.head? = some '\n')
  | brokenRaw body, rest => '\x60' ∉ body ∧ rest = []
  | brokenComment body, rest => ¬['*', '/'] <:+: body ∧ rest = []

/-- The delimiter that a fragment is. -/
def delimiter? : Fragment → Option Char
  | whole (.delimiter c) => some c
  | _ => none

/-- The name of what is broken off. -/
def broken? : Fragment → Option String
  | whole _ => none
  | brokenQuoted quote _ => some (kindOf quote)
  | brokenRaw _ => some "raw string literal"
  | brokenComment _ => some "comment"

theorem text_ne_nil (f : Fragment) : f.text ≠ [] := by
  cases f with
  | whole p => cases p <;> simp [text, Piece.text]
  | _ => simp [text]

theorem eq_of_delimiter? {f : Fragment} {c : Char} (h : f.delimiter? = some c) :
    f = whole (.delimiter c) := by
  cases f with
  | whole p => cases p <;> simp_all [delimiter?]
  | _ => simp [delimiter?] at h

end Fragment

/-- The fragments that a text is cut into. -/
inductive Scan : List Fragment → List Char → Prop where
  | nil : Scan [] []
  | cons {f : Fragment} {fs : List Fragment} {rest : List Char} :
      f.Fits rest → Scan fs rest → Scan (f :: fs) (f.text ++ rest)

/-- The text of fragments. -/
def textOf (fs : List Fragment) : List Char := fs.flatMap Fragment.text

/-- The line on which fragments end, counted from one. -/
def lineAfter (fs : List Fragment) : Nat := (textOf fs).count '\n' + 1

theorem textOf_append (fs gs : List Fragment) : textOf (fs ++ gs) = textOf fs ++ textOf gs :=
  List.flatMap_append

theorem Scan.text_eq {fs : List Fragment} {text : List Char} (h : Scan fs text) :
    text = textOf fs := by
  induction h with
  | nil => rfl
  | cons _ _ ih => rw [ih]; rfl

/-- Every fragment fits what follows it. -/
theorem Scan.fits {before after : List Fragment} {f : Fragment} {text : List Char}
    (h : Scan (before ++ f :: after) text) : f.Fits (textOf after) := by
  generalize hfs : before ++ f :: after = fs at h
  induction h generalizing before with
  | nil => simp at hfs
  | cons hfits hscan ih =>
    cases before with
    | nil =>
      obtain ⟨rfl, rfl⟩ := List.cons.inj hfs
      rwa [← hscan.text_eq]
    | cons g before => exact ih (List.cons.inj hfs).2

/-! ## Cutting a text -/

/-- Behind a quote there is a literal with an end, or one that is broken off.  A backslash counts to
the text when it protects the next character. -/
theorem exists_quoted_or_broken (quote : Char) (cs : List Char) (escaped : Bool) :
    (∃ body rest, pending '\\' escaped ++ cs = body ++ quote :: rest ∧ QuotedBody quote body) ∨
    ∃ body rest, pending '\\' escaped ++ cs = body ++ rest ∧ BrokenBody quote body ∧
      (rest = [] ∨ rest.head? = some '\n') := by
  induction cs generalizing escaped with
  | nil =>
    right
    cases escaped with
    | false => exact ⟨[], [], rfl, .nil, .inl rfl⟩
    | true => exact ⟨['\\'], [], rfl, .backslash, .inl rfl⟩
  | cons c cs ih =>
    by_cases hline : c = '\n'
    · right
      cases escaped with
      | false => exact ⟨[], c :: cs, rfl, .nil, .inr (by simp [hline])⟩
      | true => exact ⟨['\\'], c :: cs, rfl, .backslash, .inr (by simp [hline])⟩
    cases escaped with
    | true =>
      rcases ih false with ⟨body, rest, heq, hbody⟩ | ⟨body, rest, heq, hbody, hrest⟩
      · exact .inl ⟨'\\' :: c :: body, rest, congrArg ('\\' :: c :: ·) heq, .escaped hline hbody⟩
      · exact .inr ⟨'\\' :: c :: body, rest, congrArg ('\\' :: c :: ·) heq, .escaped hline hbody,
          hrest⟩
    | false =>
      by_cases hend : c = quote
      · exact .inl ⟨[], cs, by simp [pending, hend], .nil⟩
      by_cases hescape : c = '\\'
      · rw [hescape]
        exact ih true
      rcases ih false with ⟨body, rest, heq, hbody⟩ | ⟨body, rest, heq, hbody, hrest⟩
      · exact .inl ⟨c :: body, rest, congrArg (c :: ·) heq, .plain hend hescape hline hbody⟩
      · exact .inr ⟨c :: body, rest, congrArg (c :: ·) heq, .plain hend hescape hline hbody, hrest⟩

/-- Every text begins with a fragment. -/
theorem exists_fragment (c : Char) (cs : List Char) :
    ∃ (f : Fragment) (rest : List Char), c :: cs = f.text ++ rest ∧ f.Fits rest := by
  by_cases hquote : c = '"' ∨ c = '\''
  · rcases exists_quoted_or_broken c cs false with ⟨body, rest, heq, hbody⟩ |
      ⟨body, rest, heq, hbody, hrest⟩
    · have hcs : cs = body ++ c :: rest := heq
      exact ⟨.whole (.quoted c body), rest, by simp [Fragment.text, Piece.text, hcs], hquote, hbody⟩
    · have hcs : cs = body ++ rest := heq
      exact ⟨.brokenQuoted c body, rest, by simp [Fragment.text, hcs], hquote, hbody, hrest⟩
  by_cases hraw : c = '\x60'
  · subst hraw
    by_cases hmem : '\x60' ∈ cs
    · obtain ⟨body, rest, rfl, hbody⟩ := List.eq_append_cons_of_mem hmem
      exact ⟨.whole (.raw body), rest, by simp [Fragment.text, Piece.text], hbody⟩
    · exact ⟨.brokenRaw cs, [], by simp [Fragment.text], hmem, rfl⟩
  by_cases hdelimiter : isOpener c = true ∨ isCloser c = true
  · exact ⟨.whole (.delimiter c), cs, rfl, hdelimiter⟩
  obtain ⟨hstring, hrune⟩ := not_or.1 hquote
  obtain ⟨hopener, hcloser⟩ := not_or.1 hdelimiter
  have hother (hslash : c = '/' → cs.head? ≠ some '/' ∧ cs.head? ≠ some '*') :
      ∃ (f : Fragment) (rest : List Char), c :: cs = f.text ++ rest ∧ f.Fits rest :=
    ⟨.whole (.other c), cs, rfl, by simpa using hopener, by simpa using hcloser, hstring, hrune, hraw,
      hslash⟩
  by_cases hslash : c = '/'
  · subst hslash
    by_cases hline : cs.head? = some '/'
    · obtain ⟨cs, rfl⟩ := List.head?_eq_some_iff.1 hline
      obtain ⟨body, rest, rfl, hfits⟩ := Lexer.exists_lineComment cs
      exact ⟨.whole (.lineComment body), rest, rfl, hfits⟩
    by_cases hblock : cs.head? = some '*'
    · obtain ⟨cs, rfl⟩ := List.head?_eq_some_iff.1 hblock
      by_cases hends : ['*', '/'] <:+: cs
      · obtain ⟨body, rest, rfl, hbody⟩ := Lexer.exists_first_infix (by simp) hends
        exact ⟨.whole (.blockComment body), rest, by simp [Fragment.text, Piece.text], hbody⟩
      · exact ⟨.brokenComment cs, [], by simp [Fragment.text], hends, rfl⟩
    · exact hother fun _ => ⟨hline, hblock⟩
  · exact hother fun heq => absurd heq hslash

/-- Every text can be cut into fragments. -/
theorem exists_scan (text : List Char) : ∃ fs, Scan fs text := by
  induction hlength : text.length using Nat.strongRecOn generalizing text with
  | ind n ih =>
    cases text with
    | nil => exact ⟨[], .nil⟩
    | cons c cs =>
      obtain ⟨f, rest, heq, hfits⟩ := exists_fragment c cs
      have hshorter : rest.length < n := by
        have htext := List.length_pos_iff.2 f.text_ne_nil
        rw [← hlength, heq, List.length_append]
        omega
      obtain ⟨fs, hscan⟩ := ih rest.length hshorter rest rfl
      rw [heq]
      exact ⟨f :: fs, .cons hfits hscan⟩

/-! ## Faults of fragments -/

/-- The delimiters of fragments that begin on a line, with their own lines. -/
def delimitersFrom (line : Nat) : List Fragment → List Delimiter
  | [] => []
  | f :: fs =>
    (f.delimiter?.map (·, line)).toList ++ delimitersFrom (line + f.text.count '\n') fs

/-- The openers of a text in fragments that stay open, in the order in which they open. -/
def openIn (fs : List Fragment) : List Delimiter := unclosed (delimitersFrom 1 fs)

/-- The fault of a delimiter behind open ones, innermost first: it is a closer and does not fit. -/
def misfit? (opened : List Delimiter) (c : Char) : Option Fault :=
  if isOpener c then none
  else
    match opened with
    | [] => some (.unopened c)
    | top :: _ => if top.1 = openerOf c then none else some (.mismatched c top.1 top.2)

/-- The fault of a fragment behind open delimiters. -/
def Fragment.fault? (opened : List Delimiter) (f : Fragment) : Option Fault :=
  (f.delimiter?.bind (misfit? opened)).or (f.broken?.map .unterminated)

/-- The faults of fragments that begin on a line behind open delimiters, each on the line where its
fragment begins. -/
def faultsFrom (line : Nat) (opened : List Delimiter) : List Fragment → List Diagnostic
  | [] => []
  | f :: fs =>
    ((f.fault? opened).map (Diagnostic.mk line)).toList ++
      faultsFrom (line + f.text.count '\n')
        (openAfter opened (f.delimiter?.map (·, line)).toList) fs

namespace Lexer

/-! ## Lines -/

@[simp] theorem line_token (t : List Char) (l : Lexer) : (l.token t).line = l.line := by
  unfold token
  split <;> rfl

@[simp] theorem line_endWord (l : Lexer) : l.endWord.line = l.line := by
  unfold endWord
  split <;> simp

@[simp] theorem line_close (c : Char) (l : Lexer) : (l.close c).line = l.line := by
  unfold close
  split
  · split <;> rfl
  · rfl

@[simp] theorem line_mark (c : Char) (l : Lexer) : (l.mark c).line = l.line := by
  unfold mark beginLiteral
  repeat' split
  all_goals simp

@[simp] theorem line_code (c : Char) (l : Lexer) : (l.code c).line = l.line := by
  unfold code
  dsimp only
  repeat' split
  all_goals simp

@[simp] theorem line_stepMode (l : Lexer) (c : Char) : (l.stepMode c).line = l.line := by
  unfold stepMode quoted breakLiteral report beginLiteral
  repeat' split
  all_goals simp

/-- The line is one more than the number of line ends so far. -/
theorem line_feed (l : Lexer) (cs : List Char) : (l.feed cs).line = l.line + cs.count '\n' := by
  induction cs generalizing l with
  | nil => rfl
  | cons c cs ih =>
    rw [feed_cons, ih, List.count_cons, step]
    by_cases hline : c = '\n'
    · simp only [hline, if_true, line_stepMode, beq_self_eq_true]
      omega
    · simp [hline]

/-! ## Reading a fragment -/

/-- A state in code behind a fragment that was read from another one. -/
structure Reads (l : Lexer) (f : Fragment) (m : Lexer) : Prop where
  mode : m.mode = .code
  line : m.line = l.line + f.text.count '\n'
  stack : m.stack = openAfter l.stack (f.delimiter?.map (·, l.line)).toList
  diagnostics : m.diagnostics =
    l.diagnostics ++ ((f.fault? l.stack).map (Diagnostic.mk l.line)).toList

/-- A piece that is no delimiter opens nothing, closes nothing and is no fault. -/
theorem Reads.of_quiet {l m : Lexer} {p : Piece} (hp : (Fragment.whole p).delimiter? = none)
    (hmode : m.mode = .code) (hline : m.line = l.line + p.text.count '\n')
    (hstack : m.stack = l.stack) (hdiagnostics : m.diagnostics = l.diagnostics) :
    Reads l (.whole p) m where
  mode := hmode
  line := hline
  stack := by simp [hp, hstack]
  diagnostics := by simp [Fragment.fault?, hp, Fragment.broken?, hdiagnostics]

theorem reads_delimiter {l : Lexer} (hl : l.mode = .code) {c : Char}
    (h : isOpener c = true ∨ isCloser c = true) : Reads l (.whole (.delimiter c)) (l.step c) := by
  have hplain : Text.isWordChar c = false ∧ c ≠ '/' ∧ c ≠ '\n' ∧ c ≠ '"' ∧ c ≠ '\'' ∧
      c ≠ '\x60' := by
    simp only [isOpener, isCloser, Bool.or_eq_true, beq_iff_eq] at h
    rcases h with ((rfl | rfl) | rfl) | ((rfl | rfl) | rfl) <;> decide
  obtain ⟨hword, hslash, hline, hstring, hrune, hraw⟩ := hplain
  obtain ⟨head, word, hstep⟩ := alike_step_of_mark hl hword hslash hline
  have hdelimiter : (Fragment.whole (.delimiter c)).delimiter? = some c := rfl
  have hfault : (Fragment.whole (.delimiter c)).fault? l.stack = misfit? l.stack c := by
    simp [Fragment.fault?, hdelimiter, Fragment.broken?]
  have hmark : l.mark c = { l with
      stack := openOne l.stack (c, l.line),
      opened := l.opened || isOpener c,
      diagnostics := l.diagnostics ++ ((misfit? l.stack c).map (Diagnostic.mk l.line)).toList } := by
    simp only [mark, if_neg hstring, if_neg hrune, if_neg hraw]
    cases hopener : isOpener c with
    | true => simp [misfit?, openOne, hopener]
    | false =>
      have hcloser : isCloser c = true := h.resolve_left (by simp [hopener])
      simp only [hcloser, close, misfit?, openOne, hopener, if_true, Bool.false_eq_true, if_false]
      cases hstack : l.stack with
      | nil => simp [report, hstack]
      | cons top stack =>
        by_cases hfits : top.1 = openerOf c
        · simp [hfits]
        · simp [hfits, report, hstack]
  rw [hmark] at hstep
  refine ⟨by rw [hstep]; exact hl, ?_, by rw [hstep]; rfl, by rw [hfault, hstep]; rfl⟩
  exact line_feed l [c]

/-- A piece is read from code to code, and the text behind it as if it began there. -/
theorem reads_whole {l : Lexer} (hl : l.mode = .code) {p : Piece} {rest : List Char}
    (h : p.Fits rest) :
    ∃ m, Reads l (.whole p) m ∧ (l.feed (p.text ++ rest)).finish = (m.feed rest).finish := by
  have plain (hreads : Reads l (.whole p) (l.feed p.text)) :
      ∃ m, Reads l (.whole p) m ∧ (l.feed (p.text ++ rest)).finish = (m.feed rest).finish :=
    ⟨l.feed p.text, hreads, by rw [feed_append]⟩
  have hline := line_feed l p.text
  cases p with
  | lineComment body =>
    obtain ⟨head, word, hend⟩ := Alike.endWord l
    refine ⟨l.endWord, .of_quiet rfl ?_ ?_ ?_ ?_, (endsLike_lineComment hl h).finish⟩
    · rw [hend]
      exact hl
    · have hnone : (Piece.lineComment body).text.count '\n' = 0 := by
        rw [List.count_eq_zero]
        simpa [Piece.text] using h.1
      rw [line_endWord, hnone, Nat.add_zero]
    · rw [hend]
      rfl
    · rw [hend]
      rfl
  | blockComment body =>
    obtain ⟨line, hfeed⟩ := feed_blockComment hl h
    obtain ⟨head, word, hend⟩ := Alike.endWord l
    have hstack : l.endWord.stack = l.stack := by rw [hend]; rfl
    refine plain (.of_quiet rfl (by rw [hfeed]) hline ?_ ?_)
    · rw [hfeed]
      exact hstack
    · rw [hfeed]
      exact (Alike.endWord l).diagnostics_eq
  | quoted quote body =>
    obtain ⟨head, word, hstep⟩ := alike_step_quote hl h.1
    refine plain (.of_quiet rfl ?_ hline ?_ ?_) <;> rw [feed_quoted hl h]
    · rw [hstep]
      rfl
    · rw [hstep]
      rfl
  | raw body =>
    obtain ⟨line, hfeed⟩ := feed_raw hl h
    obtain ⟨head, word, hstep⟩ := alike_step_backtick hl
    refine plain (.of_quiet rfl (by rw [hfeed]) hline ?_ ?_)
    · rw [hfeed, hstep]
      rfl
    · rw [hfeed, hstep]
      rfl
  | delimiter c => exact plain (reads_delimiter hl h)
  | other c =>
    by_cases hslash : c = '/'
    · subst hslash
      obtain ⟨head, word, htoken⟩ := (Alike.endWord l).trans (.token ['/'] l.endWord)
      refine ⟨_, .of_quiet rfl ?_ ?_ ?_ ?_, (endsLike_slash hl h).finish⟩
      · rw [htoken]
        exact hl
      · simp [Piece.text]
      · rw [htoken]
        rfl
      · rw [htoken]
        rfl
    · obtain ⟨hopener, hcloser, hstring, hrune, hraw, -⟩ := h
      have hinert : isInert c = true := by
        simp [isInert, hopener, hcloser, hstring, hrune, hraw, hslash]
      obtain ⟨head, word, hcode⟩ := alike_code_of_isInert l hinert
      have hmode := mode_step l c
      have hstack := stack_step l c
      have hdiagnostics := diagnostics_step l c
      rw [stepMode_of_code hl, hcode] at hmode hstack hdiagnostics
      exact plain (.of_quiet rfl (hmode.trans hl) hline hstack hdiagnostics)

/-! ## Reading what is broken off -/

/-- The state behind a literal or a comment that is broken off where the text ends or its line. -/
def breakOff (kind : String) (l : Lexer) : Lexer :=
  { l with
    mode := .code,
    diagnostics := l.diagnostics ++ [⟨l.literalLine, .unterminated kind⟩] }

theorem finish_breakOff {l : Lexer} {kind : String} (h : openLiteral l.mode = some kind) :
    l.finish = (l.breakOff kind).finish := by
  have hcode : openLiteral .code = none := rfl
  simp [Lexer.finish, breakOff, h, hcode]

/-- A fragment that leaves the text inside a literal or a comment that began with it. -/
theorem Reads.of_broken {l m : Lexer} {f : Fragment} {kind : String} (hbroken : f.broken? = some kind)
    (hline : m.line = l.line + f.text.count '\n') (hbegin : m.literalLine = l.line)
    (hstack : m.stack = l.stack) (hdiagnostics : m.diagnostics = l.diagnostics) :
    Reads l f (m.breakOff kind) := by
  have hdelimiter : f.delimiter? = none := by
    cases f with
    | whole p => simp [Fragment.broken?] at hbroken
    | _ => rfl
  refine ⟨rfl, hline, ?_, ?_⟩
  · simpa [hdelimiter, breakOff] using hstack
  · simp [breakOff, Fragment.fault?, hdelimiter, hbroken, hbegin, hdiagnostics]

/-- What stands behind the quote of a broken literal leaves no trace but a last backslash. -/
theorem feed_brokenBody {l : Lexer} {quote : Char} (hquote : quote = '"' ∨ quote = '\'')
    (hl : l.mode = inQuotes quote false) {body : List Char} (h : BrokenBody quote body) :
    ∃ escaped, l.feed body = { l with mode := inQuotes quote escaped } := by
  have hne : '\\' ≠ quote := by
    rcases hquote with rfl | rfl <;> decide
  have hescape : l.step '\\' = { l with mode := inQuotes quote true } :=
    step_inQuotes hquote hl (by decide) (.inl hne)
  induction h with
  | nil => exact ⟨false, by rw [feed_nil, ← hl]⟩
  | backslash => exact ⟨true, hescape⟩
  | @plain c body hend hplain hline _ ih =>
    have hstep : l.step c = l := by
      rw [step_inQuotes hquote hl hline (.inl hend), beq_false_of_ne hplain, Bool.and_false, ← hl]
    rw [feed_cons, hstep]
    exact ih
  | @escaped c body hline _ ih =>
    have hback : ({ l with mode := inQuotes quote true } : Lexer).step c = l := by
      rw [step_inQuotes hquote rfl hline (.inr rfl), Bool.not_true, Bool.false_and, ← hl]
    rw [feed_cons, feed_cons, hescape, hback]
    exact ih

theorem openLiteral_inQuotes (quote : Char) (escaped : Bool) :
    openLiteral (inQuotes quote escaped) = some (kindOf quote) := by
  unfold inQuotes kindOf
  split <;> rfl

/-- A line end breaks a literal in quotes off. -/
theorem alike_step_break {l : Lexer} {quote : Char} (hquote : quote = '"' ∨ quote = '\'')
    {escaped : Bool} (hl : l.mode = inQuotes quote escaped) (hbegin : l.literalLine = l.line) :
    Alike ((l.breakOff (kindOf quote)).step '\n') (l.step '\n') := by
  have hbreak : l.step '\n' =
      { l.breakOff (kindOf quote) with line := (l.breakOff (kindOf quote)).line + 1 } := by
    rw [step, stepMode_inQuotes hquote hl, quoted]
    simp [breakLiteral, report, breakOff, hbegin]
  obtain ⟨head, word, hend⟩ := Alike.endWord (l.breakOff (kindOf quote))
  rw [step_newline (l := l.breakOff (kindOf quote)) rfl, hbreak, hend]
  exact ⟨_, _, rfl⟩

theorem reads_brokenQuoted {l : Lexer} (hl : l.mode = .code) {quote : Char}
    {body rest : List Char} (h : (Fragment.brokenQuoted quote body).Fits rest) :
    ∃ m, Reads l (.brokenQuoted quote body) m ∧
      (l.feed ((Fragment.brokenQuoted quote body).text ++ rest)).finish = (m.feed rest).finish := by
  obtain ⟨hquote, hbody, hrest⟩ := h
  obtain ⟨head, word, hstep⟩ := alike_step_quote hl hquote
  have hmode : (l.step quote).mode = inQuotes quote false := by rw [hstep]; rfl
  obtain ⟨escaped, hfeed⟩ := feed_brokenBody hquote hmode hbody
  have hline := line_feed l (Fragment.brokenQuoted quote body).text
  rw [feed_append]
  rw [Fragment.text, feed_cons, hfeed, hstep] at hline ⊢
  refine ⟨_, Reads.of_broken rfl hline rfl rfl rfl, ?_⟩
  rcases hrest with rfl | hrest
  · rw [feed_nil, feed_nil]
    exact finish_breakOff (openLiteral_inQuotes quote escaped)
  · obtain ⟨rest, rfl⟩ := List.head?_eq_some_iff.1 hrest
    exact ((alike_step_break hquote rfl rfl).feed rest).finish_eq

theorem reads_brokenRaw {l : Lexer} (hl : l.mode = .code) {body rest : List Char}
    (h : (Fragment.brokenRaw body).Fits rest) :
    ∃ m, Reads l (.brokenRaw body) m ∧
      (l.feed ((Fragment.brokenRaw body).text ++ rest)).finish = (m.feed rest).finish := by
  obtain ⟨hbody, rfl⟩ := h
  obtain ⟨head, word, hstep⟩ := alike_step_backtick hl
  have hmode : (l.step '\x60').mode = .raw := by rw [hstep]; rfl
  obtain ⟨line, hfeed⟩ := feed_rawBody hmode hbody
  have hline := line_feed l (Fragment.brokenRaw body).text
  rw [List.append_nil]
  rw [Fragment.text, feed_cons, hfeed, hstep] at hline ⊢
  exact ⟨_, Reads.of_broken rfl hline rfl rfl rfl, finish_breakOff rfl⟩

theorem reads_brokenComment {l : Lexer} (hl : l.mode = .code) {body rest : List Char}
    (h : (Fragment.brokenComment body).Fits rest) :
    ∃ m, Reads l (.brokenComment body) m ∧
      (l.feed ((Fragment.brokenComment body).text ++ rest)).finish = (m.feed rest).finish := by
  obtain ⟨hbody, rfl⟩ := h
  obtain ⟨line, star, hfeed⟩ := feed_blockBody (l := l.inBlockComment) rfl hbody
  obtain ⟨head, word, hend⟩ := Alike.endWord l
  have htext : (Fragment.brokenComment body).text = ['/', '*'] ++ body := rfl
  have hline := line_feed l (Fragment.brokenComment body).text
  rw [List.append_nil]
  rw [htext, feed_append, feed_beginBlockComment hl, hfeed, inBlockComment, hend] at hline ⊢
  exact ⟨_, Reads.of_broken rfl hline rfl rfl rfl, finish_breakOff rfl⟩

/-- A fragment is read from code to code, and the text behind it as if it began there. -/
theorem reads_fragment {l : Lexer} (hl : l.mode = .code) {f : Fragment} {rest : List Char}
    (h : f.Fits rest) :
    ∃ m, Reads l f m ∧ (l.feed (f.text ++ rest)).finish = (m.feed rest).finish := by
  cases f with
  | whole p => exact reads_whole hl h
  | brokenQuoted quote body => exact reads_brokenQuoted hl h
  | brokenRaw body => exact reads_brokenRaw hl h
  | brokenComment body => exact reads_brokenComment hl h

/-- The diagnostics of openers that are never closed. -/
def neverClosed (ds : List Delimiter) : List Diagnostic := ds.map fun d => ⟨d.2, .unclosed d.1⟩

/-- The diagnostics of a text are those so far, the faults of its fragments, and the openers that stay
open. -/
theorem finish_feed_scan {l : Lexer} (hl : l.mode = .code) {fs : List Fragment} {text : List Char}
    (h : Scan fs text) :
    (l.feed text).finish = l.diagnostics ++ faultsFrom l.line l.stack fs ++
      neverClosed (openAfter l.stack (delimitersFrom l.line fs)).reverse := by
  induction h generalizing l with
  | nil => simp [Lexer.finish, hl, openLiteral, faultsFrom, delimitersFrom, neverClosed]
  | cons hfits _ ih =>
    obtain ⟨m, hreads, hfinish⟩ := reads_fragment hl hfits
    rw [hfinish, ih hreads.mode, hreads.diagnostics, hreads.line, hreads.stack, faultsFrom,
      delimitersFrom, openAfter_append]
    simp only [List.append_assoc]

end Lexer

end Recast.Go
