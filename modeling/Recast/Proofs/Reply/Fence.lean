/-
  Proofs/Reply/Fence.lean --- the code of an answer, line by line.

  The tracker follows an answer one character at a time and holds back what may become the closing
  fence.  Line by line the rule is short: the code begins behind the first line that opens a fence,
  and ends in front of the first line with a fence that is not inside of a string between backticks
  (`codeLines?`, `closingLine?`).  `run_code` says that the tracker follows this rule, and
  `codeOf_fenced` what that makes of a whole answer.
-/
import Recast.Proofs.Go.Package
import Recast.Proofs.Reply.Code
import Recast.Reply.Tracker

set_option autoImplicit false

namespace Recast.Reply

open Text (linesWithEnds)
open Tracker (fence)

/-! ## The rule -/

/-- Whether the code begins behind a line: the line has an end, and a fence begins it but for
blanks. -/
def opensCode (line : List Char) : Bool :=
  line.getLast? == some '\n' && fence.isPrefixOf (Text.trimStart line)

/-- The first line that opens the code. -/
def openingLine? (text : List Char) : Option Nat := (linesWithEnds text).findIdx? opensCode

/-- The lines behind the first one that opens the code. -/
def codeLines? (text : List Char) : Option (List (List Char)) :=
  (openingLine? text).map fun n => (linesWithEnds text).drop (n + 1)

/-- A character that may stand in front of the closing fence. -/
def isIndent (c : Char) : Bool := c == ' ' || c == '\t'

/-- Whether a line begins with a fence, behind spaces and tabs. -/
def hasFence (line : List Char) : Bool := fence.isPrefixOf (line.dropWhile isIndent)

/-- Whether a line of the code closes it.  `l` is the state in front of the lines. -/
def closesAt (l : Go.Lexer) (lines : List (List Char)) (n : Nat) : Bool :=
  !(l.feed (lines.take n).flatten).inRawString && hasFence (lines.getD n [])

/-- The first line that closes the code. -/
def closingLine? (l : Go.Lexer) (lines : List (List Char)) : Option Nat :=
  (List.range lines.length).find? (closesAt l lines)

/-- The code in front of the line that closes it, or to the end. -/
def codeBefore (lines : List (List Char)) : List Char :=
  match closingLine? {} lines with
  | some n => (lines.take n).flatten
  | none => lines.flatten

theorem closingLine?_cons (l : Go.Lexer) (line : List Char) (rest : List (List Char)) :
    closingLine? l (line :: rest) =
      if !l.inRawString && hasFence line then some 0
      else (closingLine? (l.feed line) rest).map (· + 1) := by
  have hnext : closesAt l (line :: rest) ∘ Nat.succ = closesAt (l.feed line) rest := by
    funext n
    simp [closesAt]
  have hfirst : closesAt l (line :: rest) 0 = (!l.inRawString && hasFence line) := rfl
  rw [closingLine?, List.length_cons, List.range_succ_eq_map, List.find?_cons, List.find?_map,
    hnext, hfirst]
  cases (!l.inRawString && hasFence line) <;> rfl

/-! ## Steps of the tracker -/

namespace Tracker

/-- The state after more of an answer. -/
def run (t : Tracker) (cs : List Char) : Tracker := cs.foldl step t

@[simp] theorem run_nil (t : Tracker) : t.run [] = t := rfl

@[simp] theorem run_cons (t : Tracker) (c : Char) (cs : List Char) :
    t.run (c :: cs) = (t.step c).run cs := rfl

@[simp] theorem run_append (t : Tracker) (cs ds : List Char) :
    t.run (cs ++ ds) = (t.run cs).run ds := List.foldl_append ..

theorem step_of_inCode {t : Tracker} (h : t.phase = .inCode) (c : Char) : t.step c = t.inCode c := by
  rw [step, h]

/-- Behind the closing fence nothing changes any more. -/
theorem run_of_closed {t : Tracker} (h : t.phase = .closed) (cs : List Char) : t.run cs = t := by
  induction cs with
  | nil => rfl
  | cons c cs ih =>
    have hstep : t.step c = t := by rw [step, h]
    rw [run_cons, hstep, ih]

/-- The state with a text given to the code. -/
theorem foldl_emit (t : Tracker) (cs : List Char) :
    cs.foldl emit t = { t with code := cs.reverse ++ t.code, lexer := t.lexer.feed cs } := by
  induction cs generalizing t with
  | nil => rfl
  | cons c cs ih =>
    rw [List.foldl_cons, ih]
    simp [emit]

/-- The state behind a text in the code that is not the beginning of a line. -/
def passed (t : Tracker) (cs : List Char) : Tracker :=
  { t with code := cs.reverse ++ t.code, lexer := t.lexer.feed cs, atLineStart := false }

/-- A state in which nothing is held back: inside of a line, or in a string between backticks. -/
structure Free (t : Tracker) : Prop where
  inCode : t.phase = .inCode
  free : (t.atLineStart && !t.lexer.inRawString) = false

theorem Free.step {t : Tracker} (h : t.Free) (c : Char) :
    t.step c = { t.emit c with atLineStart := c == '\n' } := by
  rw [step_of_inCode h.inCode, Tracker.inCode, if_neg (by rw [h.free]; exact Bool.false_ne_true)]

/-- What stands in a line is given to the code. -/
theorem Free.run {t : Tracker} (h : t.Free) {cs : List Char} (hne : cs ≠ []) (hcs : '\n' ∉ cs) :
    t.run cs = t.passed cs := by
  induction cs generalizing t with
  | nil => exact absurd rfl hne
  | cons c cs ih =>
    have hc : (c == '\n') = false := by
      simpa using (List.ne_of_not_mem_cons hcs).symm
    have hfirst : t.step c = t.passed [c] := by
      rw [h.step, hc]
      rfl
    have hfree : (t.passed [c]).Free := ⟨h.inCode, rfl⟩
    rw [run_cons, hfirst]
    cases cs with
    | nil => rfl
    | cons d ds =>
      rw [ih hfree (List.cons_ne_nil d ds) (List.not_mem_of_not_mem_cons hcs)]
      simp [passed]

/-- A line and its end are given to the code. -/
theorem Free.run_line {t : Tracker} (h : t.Free) {body : List Char} (hbody : '\n' ∉ body) :
    t.run (body ++ ['\n']) = { t.passed (body ++ ['\n']) with atLineStart := true } := by
  by_cases hne : body = []
  · subst hne
    rw [List.nil_append, run_cons, h.step]
    rfl
  · have hfree : (t.passed body).Free := ⟨h.inCode, rfl⟩
    rw [run_append, h.run hne hbody, run_cons, hfree.step]
    simp [passed, emit]

/-! ## Holding back -/

/-- The state at the beginning of a line of the code. -/
def atLine (seen code : List Char) (l : Go.Lexer) : Tracker :=
  { phase := .inCode, seen, code, lexer := l }

/-- The state with something held back. -/
def holding (t : Tracker) (cs : List Char) : Tracker := { t with pending := cs.reverse }

theorem step_held {t : Tracker} (hphase : t.phase = .inCode)
    (hstart : (t.atLineStart && !t.lexer.inRawString) = true) {c : Char}
    (hc : t.continuesFence c = true) (hcount : (c :: t.pending).count '\x60' ≠ 3) :
    t.step c = { t with pending := c :: t.pending } := by
  rw [step_of_inCode hphase, inCode, if_pos hstart, if_pos hc]
  exact if_neg hcount

variable {seen code : List Char} {l : Go.Lexer}

/-- Spaces and tabs at the beginning of a line are held back. -/
theorem run_indent (hraw : l.inRawString = false) {indent : List Char}
    (h : ∀ c ∈ indent, isIndent c = true) (before : List Char)
    (hbefore : before.count '\x60' = 0) :
    ((atLine seen code l).holding before).run indent =
      (atLine seen code l).holding (before ++ indent) := by
  induction indent generalizing before with
  | nil => rw [run_nil, List.append_nil]
  | cons c indent ih =>
    have hc := h c (.head _)
    have hne : c ≠ '\x60' := by
      rintro rfl
      exact absurd hc (by decide)
    have hcount : (before ++ [c]).count '\x60' = 0 := by
      rw [List.count_append, hbefore, List.count_singleton, if_neg (by simpa using hne)]
    have hstep : ((atLine seen code l).holding before).step c =
        (atLine seen code l).holding (before ++ [c]) := by
      rw [step_held rfl (by simp [holding, atLine, hraw])]
      · simp [holding]
      · have hblank : (c == ' ' || c == '\t') = true := hc
        simp [continuesFence, holding, hblank, hbefore]
      · simp [holding, hbefore, hne]
    rw [run_cons, hstep, ih (fun d hd => h d (.tail _ hd)) _ hcount]
    simp

/-- So are up to two backticks behind them. -/
theorem run_held (hraw : l.inRawString = false) {indent : List Char}
    (h : ∀ c ∈ indent, isIndent c = true) {k : Nat} (hk : k < 3) :
    (atLine seen code l).run (indent ++ List.replicate k '\x60') =
      (atLine seen code l).holding (indent ++ List.replicate k '\x60') := by
  have hcount : indent.count '\x60' = 0 := by
    refine List.count_eq_zero.2 fun hmem => ?_
    exact absurd (h _ hmem) (by decide)
  have hindent : (atLine seen code l).run indent = (atLine seen code l).holding indent :=
    run_indent hraw h [] rfl
  induction k with
  | zero => rwa [List.replicate_zero, List.append_nil]
  | succ k ih =>
    have hstep : ((atLine seen code l).holding (indent ++ List.replicate k '\x60')).step '\x60' =
        (atLine seen code l).holding (indent ++ List.replicate (k + 1) '\x60') := by
      rw [step_held rfl (by simp [holding, atLine, hraw]) (by simp [continuesFence])]
      · simp [holding, List.replicate_succ']
      · simp [holding, hcount]
        omega
    rw [List.replicate_succ', ← List.append_assoc, run_append, ih (by omega), run_cons, hstep, run_nil,
      List.replicate_succ', List.append_assoc]

/-- The third backtick closes the code. -/
theorem step_closing (hraw : l.inRawString = false) {indent : List Char}
    (h : ∀ c ∈ indent, isIndent c = true) :
    ((atLine seen code l).holding (indent ++ List.replicate 2 '\x60')).step '\x60' =
      { (atLine seen code l).holding (indent ++ List.replicate 3 '\x60') with phase := .closed } := by
  have hcount : indent.count '\x60' = 0 := by
    refine List.count_eq_zero.2 fun hmem => ?_
    exact absurd (h _ hmem) (by decide)
  rw [step_of_inCode rfl, inCode, if_pos (by simp [holding, atLine, hraw]),
    if_pos (by simp [continuesFence])]
  dsimp only
  rw [if_pos (by simp [holding, hcount])]
  simp [holding, List.replicate_succ]

/-- What is held back is given to the code with the first character that cannot belong to a fence. -/
theorem step_release (hraw : l.inRawString = false) {held : List Char} {c : Char}
    (hc : ((atLine seen code l).holding held).continuesFence c = false) :
    ((atLine seen code l).holding held).step c = ((atLine seen code l).passed held).step c := by
  have hfree : ((atLine seen code l).passed held).Free := ⟨rfl, rfl⟩
  rw [hfree.step, step_of_inCode rfl, inCode, if_pos (by simp [holding, atLine, hraw]),
    if_neg (by rw [hc]; exact Bool.false_ne_true), release, foldl_emit]
  simp [holding, passed, atLine]

end Tracker

/-! ## The beginnings of lines -/

/-- A line without a fence begins with spaces and tabs and at most two backticks, which something
else follows. -/
theorem exists_held {line : List Char} (h : hasFence line = false) :
    ∃ indent k rest, line = indent ++ List.replicate k '\x60' ++ rest ∧ k < 3 ∧
      (∀ c ∈ indent, isIndent c = true) ∧
      ∀ c cs, rest = c :: cs → c ≠ '\x60' ∧ (k = 0 → isIndent c = false) := by
  have hindent : ∀ c ∈ line.takeWhile isIndent, isIndent c = true := fun c hc =>
    List.all_eq_true.1 List.all_takeWhile c hc
  have hline : line.takeWhile isIndent ++ line.dropWhile isIndent = line :=
    List.takeWhile_append_dropWhile
  have hhead := List.head?_dropWhile_not isIndent line
  unfold hasFence at h
  generalize line.dropWhile isIndent = rest at h hline hhead
  have hfree (c : Char) (cs : List Char) (heq : rest = c :: cs) : isIndent c = false := by
    rw [heq] at hhead
    simpa using hhead
  by_cases hzero : rest.head? = some '\x60'
  · obtain ⟨rest, rfl⟩ := List.head?_eq_some_iff.1 hzero
    by_cases hone : rest.head? = some '\x60'
    · obtain ⟨rest, rfl⟩ := List.head?_eq_some_iff.1 hone
      refine ⟨_, 2, rest, ?_, by omega, hindent, fun c cs heq => ⟨?_, fun hk => nomatch hk⟩⟩
      · rw [List.append_assoc]
        exact hline.symm
      · rintro rfl
        rw [heq] at h
        exact Bool.noConfusion h
    · refine ⟨_, 1, rest, ?_, by omega, hindent, fun c cs heq => ⟨?_, fun hk => nomatch hk⟩⟩
      · rw [List.append_assoc]
        exact hline.symm
      · rintro rfl
        rw [heq] at hone
        exact hone rfl
  · refine ⟨_, 0, rest, ?_, by omega, hindent, fun c cs heq => ⟨?_, fun _ => hfree c cs heq⟩⟩
    · rw [List.append_assoc]
      exact hline.symm
    · rintro rfl
      rw [heq] at hzero
      exact hzero rfl

/-- The spaces and tabs at the beginning of a line. -/
def indentOf (line : List Char) : List Char := line.takeWhile isIndent

theorem isIndent_of_mem_indentOf {line : List Char} : ∀ c ∈ indentOf line, isIndent c = true :=
  fun c hc => List.all_eq_true.1 List.all_takeWhile c hc

/-- A line with a fence is what stands in front of the fence, the fence and the rest. -/
theorem exists_of_hasFence {line : List Char} (h : hasFence line = true) :
    ∃ after, line = indentOf line ++ fence ++ after := by
  obtain ⟨after, hafter⟩ := List.isPrefixOf_iff_prefix.1 h
  refine ⟨after, ?_⟩
  rw [List.append_assoc, hafter]
  exact List.takeWhile_append_dropWhile.symm

/-! ## Lines of the code -/

section Lines

variable {seen code : List Char} {l : Go.Lexer}

/-- What is held back of a line without a fence is given to the code with what follows it. -/
theorem run_released (hraw : l.inRawString = false) {indent rest : List Char} {k : Nat} (hk : k < 3)
    (hindent : ∀ c ∈ indent, isIndent c = true)
    (hrest : ∀ c cs, rest = c :: cs → c ≠ '\x60' ∧ (k = 0 → isIndent c = false)) (hne : rest ≠ []) :
    (Tracker.atLine seen code l).run (indent ++ List.replicate k '\x60' ++ rest) =
      ((Tracker.atLine seen code l).passed (indent ++ List.replicate k '\x60')).run rest := by
  cases rest with
  | nil => exact absurd rfl hne
  | cons c cs =>
    obtain ⟨hc, hblank⟩ := hrest c cs rfl
    have hcount : indent.count '\x60' = 0 :=
      List.count_eq_zero.2 fun hmem => absurd (hindent _ hmem) (by decide)
    have hends : ((Tracker.atLine seen code l).holding
        (indent ++ List.replicate k '\x60')).continuesFence c = false := by
      have hpending : ((Tracker.atLine seen code l).holding
          (indent ++ List.replicate k '\x60')).pending.count '\x60' = k := by
        simp [Tracker.holding, hcount]
      rw [Tracker.continuesFence, hpending, beq_eq_false_iff_ne.2 hc, Bool.false_or]
      by_cases hzero : k = 0
      · have hfree : (c == ' ' || c == '\t') = false := hblank hzero
        rw [hfree, Bool.false_and]
      · rw [beq_eq_false_iff_ne.2 hzero, Bool.and_false]
    rw [Tracker.run_append, Tracker.run_held hraw hindent hk, Tracker.run_cons, Tracker.run_cons,
      Tracker.step_release hraw hends]

/-- A line that does not close the code is given to it. -/
theorem run_line {body : List Char} (hbody : '\n' ∉ body)
    (h : (!l.inRawString && hasFence (body ++ ['\n'])) = false) (seen code : List Char) :
    (Tracker.atLine seen code l).run (body ++ ['\n']) =
      Tracker.atLine seen ((body ++ ['\n']).reverse ++ code) (l.feed (body ++ ['\n'])) := by
  cases hraw : l.inRawString with
  | true =>
    have hfree : (Tracker.atLine seen code l).Free := ⟨rfl, by simp [Tracker.atLine, hraw]⟩
    exact hfree.run_line hbody
  | false =>
    rw [hraw] at h
    obtain ⟨indent, k, rest, hline, hk, hindent, hrest⟩ := exists_held h
    have hheld : '\n' ∉ indent ++ List.replicate k '\x60' := by
      intro hmem
      rcases List.mem_append.1 hmem with hmem | hmem
      · exact absurd (hindent _ hmem) (by decide)
      · exact absurd (List.eq_of_mem_replicate hmem) (by decide)
    -- The end of the line is not held back.
    obtain ⟨more, hmore, hrest'⟩ : ∃ more,
        body = indent ++ List.replicate k '\x60' ++ more ∧ rest = more ++ ['\n'] := by
      rcases List.append_eq_append_iff.1 hline with ⟨as, has, hend⟩ | ⟨bs, hbs, hend⟩
      · cases as with
        | nil => exact ⟨[], by rw [has]; simp, by rw [hend]; rfl⟩
        | cons c as =>
          obtain ⟨rfl, -⟩ := List.cons.inj hend
          exact absurd (has ▸ List.mem_append_right _ (.head _)) hheld
      · exact ⟨bs, hbs, hend⟩
    have hfree : ((Tracker.atLine seen code l).passed
        (indent ++ List.replicate k '\x60')).Free := ⟨rfl, rfl⟩
    rw [hline, run_released hraw hk hindent hrest (by rw [hrest']; simp), hrest',
      hfree.run_line fun hmem => hbody (hmore ▸ List.mem_append_right _ hmem)]
    simp [Tracker.passed, Tracker.atLine]

/-- A last line without an end and without a fence is held back or given to the code. -/
theorem run_lastLine {body : List Char} (hne : body ≠ []) (hbody : '\n' ∉ body)
    (h : (!l.inRawString && hasFence body) = false) :
    ((Tracker.atLine seen code l).run body).phase = .inCode ∧
      ((Tracker.atLine seen code l).run body).code.reverse ++
        ((Tracker.atLine seen code l).run body).pending.reverse = code.reverse ++ body := by
  cases hraw : l.inRawString with
  | true =>
    have hfree : (Tracker.atLine seen code l).Free := ⟨rfl, by simp [Tracker.atLine, hraw]⟩
    rw [hfree.run hne hbody]
    exact ⟨rfl, by simp [Tracker.passed, Tracker.atLine]⟩
  | false =>
    rw [hraw] at h
    obtain ⟨indent, k, rest, rfl, hk, hindent, hrest⟩ := exists_held h
    by_cases hnil : rest = []
    · rw [hnil, List.append_nil, Tracker.run_held hraw hindent hk]
      exact ⟨rfl, by simp [Tracker.holding, Tracker.atLine]⟩
    · have hfree : ((Tracker.atLine seen code l).passed
          (indent ++ List.replicate k '\x60')).Free := ⟨rfl, rfl⟩
      rw [run_released hraw hk hindent hrest hnil,
        hfree.run hnil fun hmem => hbody (List.mem_append_right _ hmem)]
      exact ⟨rfl, by simp [Tracker.passed, Tracker.atLine]⟩

end Lines

/-! ## The whole code -/

/-- Reading a text from a state ends with the third backtick of the closing fence, and not before.
The code is what was given to it. -/
structure Closes (t : Tracker) (head code : List Char) : Prop where
  before : ∃ init, head = init ++ ['\x60'] ∧ (t.run init).phase = .inCode
  closed : (t.run head).phase = .closed
  code : (t.run head).code.reverse = code

theorem Closes.after {t : Tracker} {first head code : List Char} (h : Closes (t.run first) head code) :
    Closes t (first ++ head) code := by
  obtain ⟨⟨init, rfl, hinit⟩, hclosed, hcode⟩ := h
  rw [← Tracker.run_append] at hinit hclosed hcode
  exact ⟨⟨first ++ init, by rw [List.append_assoc], hinit⟩, hclosed, hcode⟩

/-- The code and the line that closes it, up to the third backtick. -/
def upToFence (lines : List (List Char)) (n : Nat) : List Char :=
  (lines.take n).flatten ++ indentOf (lines.getD n []) ++ fence

@[simp] theorem upToFence_zero (line : List Char) (rest : List (List Char)) :
    upToFence (line :: rest) 0 = indentOf line ++ fence := rfl

@[simp] theorem upToFence_succ (line : List Char) (rest : List (List Char)) (n : Nat) :
    upToFence (line :: rest) (n + 1) = line ++ upToFence rest n := by
  simp [upToFence]

/-- A line with a fence closes the code, if it is not in a string between backticks. -/
theorem closes_line {l : Go.Lexer} (hraw : l.inRawString = false) (line seen code : List Char) :
    Closes (Tracker.atLine seen code l) (indentOf line ++ fence) code.reverse := by
  have hheld : (Tracker.atLine seen code l).run (indentOf line ++ List.replicate 2 '\x60') =
      (Tracker.atLine seen code l).holding (indentOf line ++ List.replicate 2 '\x60') :=
    Tracker.run_held hraw isIndent_of_mem_indentOf (by omega)
  have hfence : indentOf line ++ fence = indentOf line ++ List.replicate 2 '\x60' ++ ['\x60'] := by
    rw [List.append_assoc]
    rfl
  have hclosed : (Tracker.atLine seen code l).run (indentOf line ++ fence) =
      { (Tracker.atLine seen code l).holding (indentOf line ++ List.replicate 3 '\x60') with
        phase := .closed } := by
    rw [hfence, Tracker.run_append, hheld, Tracker.run_cons,
      Tracker.step_closing hraw isIndent_of_mem_indentOf, Tracker.run_nil]
  exact ⟨⟨_, hfence, by rw [hheld]; rfl⟩, by rw [hclosed], by rw [hclosed]; rfl⟩

/-- A first line that closes the code does so whatever follows. -/
theorem closes_first {line : List Char} {l : Go.Lexer}
    (h : (!l.inRawString && hasFence line) = true) (rest : List (List Char))
    (seen code : List Char) :
    closingLine? l (line :: rest) ≠ none ∧
      ∀ n, closingLine? l (line :: rest) = some n →
        Closes (Tracker.atLine seen code l) (upToFence (line :: rest) n)
            (code.reverse ++ ((line :: rest).take n).flatten) ∧
          upToFence (line :: rest) n <+: (line :: rest).flatten := by
  obtain ⟨hraw, hfence⟩ := Bool.and_eq_true_iff.1 h
  obtain ⟨after, hafter⟩ := exists_of_hasFence hfence
  rw [closingLine?_cons, if_pos h]
  refine ⟨nofun, fun n hn => ?_⟩
  cases hn
  refine ⟨?_, after ++ rest.flatten, ?_⟩
  · have hclosed := closes_line (by simpa using hraw) line seen code
    simpa using hclosed
  · rw [upToFence_zero, List.flatten_cons, ← List.append_assoc, ← hafter]

/-- The tracker takes out the code as the lines say. -/
theorem run_code (body seen code : List Char) (l : Go.Lexer) :
    (closingLine? l (linesWithEnds body) = none →
      ((Tracker.atLine seen code l).run body).phase = .inCode ∧
        ((Tracker.atLine seen code l).run body).code.reverse ++
          ((Tracker.atLine seen code l).run body).pending.reverse = code.reverse ++ body) ∧
      ∀ n, closingLine? l (linesWithEnds body) = some n →
        Closes (Tracker.atLine seen code l) (upToFence (linesWithEnds body) n)
            (code.reverse ++ ((linesWithEnds body).take n).flatten) ∧
          upToFence (linesWithEnds body) n <+: body := by
  induction body using Text.lineInduction generalizing code l with
  | nil => exact ⟨fun _ => ⟨rfl, rfl⟩, fun n hn => nomatch hn⟩
  | last body hne hbody =>
    rw [Text.linesWithEnds_of_not_mem hne hbody]
    cases hcloses : (!l.inRawString && hasFence body) with
    | true =>
      obtain ⟨hsome, hclosed⟩ := closes_first hcloses [] seen code
      rw [List.flatten_singleton] at hclosed
      exact ⟨fun hnone => absurd hnone hsome, hclosed⟩
    | false =>
      rw [closingLine?_cons, if_neg (by rw [hcloses]; exact Bool.false_ne_true)]
      exact ⟨fun _ => run_lastLine hne hbody hcloses, fun n hn => nomatch hn⟩
  | line body cs hbody ih =>
    rw [Text.linesWithEnds_append cs hbody]
    cases hcloses : (!l.inRawString && hasFence (body ++ ['\n'])) with
    | true =>
      obtain ⟨hsome, hclosed⟩ := closes_first hcloses (linesWithEnds cs) seen code
      rw [List.flatten_cons, Text.flatten_linesWithEnds, List.append_assoc] at hclosed
      exact ⟨fun hnone => absurd hnone hsome, hclosed⟩
    | false =>
      have hline : body ++ '\n' :: cs = (body ++ ['\n']) ++ cs := by simp
      have hrun := run_line hbody hcloses seen code
      obtain ⟨hopen, hclosed⟩ := ih ((body ++ ['\n']).reverse ++ code) (l.feed (body ++ ['\n']))
      rw [closingLine?_cons, if_neg (by rw [hcloses]; exact Bool.false_ne_true), hline,
        Tracker.run_append, hrun]
      refine ⟨fun hnone => ?_, fun n hn => ?_⟩
      · obtain ⟨hphase, hcode⟩ := hopen (Option.map_eq_none_iff.1 hnone)
        refine ⟨hphase, ?_⟩
        rw [hcode]
        simp
      · obtain ⟨m, hm, rfl⟩ := Option.map_eq_some_iff.1 hn
        obtain ⟨hcloses, hleads⟩ := hclosed m hm
        rw [← hrun] at hcloses
        rw [upToFence_succ]
        refine ⟨?_, (List.prefix_append_right_inj _).2 hleads⟩
        have hall := hcloses.after
        simpa using hall

/-! ## The text in front of the code -/

theorem isPrefixOf_fence_newline (cs : List Char) :
    fence.isPrefixOf (cs ++ ['\n']) = fence.isPrefixOf cs := by
  rcases cs with _ | ⟨a, _ | ⟨b, _ | ⟨c, cs⟩⟩⟩ <;> simp [fence, List.isPrefixOf]

/-- A line opens the code by what stands in front of its end. -/
theorem opensCode_newline (body : List Char) :
    opensCode (body ++ ['\n']) = fence.isPrefixOf (Text.trimStart body) := by
  have hlast : ((body ++ ['\n']).getLast? == some '\n') = true := by
    rw [List.getLast?_concat]
    rfl
  rw [opensCode, hlast, Bool.true_and, Text.trimStart, Text.dropStart, List.dropWhile_append]
  split
  · next hblank =>
    rw [Text.trimStart, Text.dropStart, List.isEmpty_iff.1 hblank]
    rfl
  · exact isPrefixOf_fence_newline _

namespace Tracker

/-- The state in front of the code, at the beginning of a line. -/
def seeking (seen : List Char) : Tracker := { seen }

/-- Inside of a line the characters are kept. -/
theorem run_seeking (seen before : List Char) {body : List Char} (hbody : '\n' ∉ body) :
    Tracker.run { seeking seen with line := before } body =
      { seeking (body.reverse ++ seen) with line := body.reverse ++ before } := by
  induction body generalizing seen before with
  | nil => rfl
  | cons c body ih =>
    have hstep : Tracker.step { seeking seen with line := before } c =
        { seeking (c :: seen) with line := c :: before } := by
      have hc : c ≠ '\n' := (List.ne_of_not_mem_cons hbody).symm
      simp [step, seek, seeking, hc]
    rw [run_cons, hstep, ih _ _ (List.not_mem_of_not_mem_cons hbody)]
    simp

/-- A line in front of the code, with its end. -/
theorem run_seeking_line (seen : List Char) {body : List Char} (hbody : '\n' ∉ body) :
    (seeking seen).run (body ++ ['\n']) =
      if opensCode (body ++ ['\n']) then atLine ((body ++ ['\n']).reverse ++ seen) [] {}
      else seeking ((body ++ ['\n']).reverse ++ seen) := by
  have hline : (seeking seen).run body = { seeking (body.reverse ++ seen) with line := body.reverse } := by
    have hrun := run_seeking seen [] hbody
    rwa [List.append_nil] at hrun
  rw [run_append, hline, opensCode_newline, run_cons, run_nil]
  simp only [step, seek, seeking, if_true, List.reverse_reverse]
  split <;> simp [atLine]

end Tracker

/-- The text in front of the code leads to the code, and a text without a fence leads to none. -/
theorem run_prose (text seen : List Char) :
    (openingLine? text = none →
      ((Tracker.seeking seen).run text).phase = .seekingFence ∧
        ((Tracker.seeking seen).run text).seen = text.reverse ++ seen) ∧
      ∀ n, openingLine? text = some n →
        (∃ seen', (Tracker.seeking seen).run ((linesWithEnds text).take (n + 1)).flatten =
          Tracker.atLine seen' [] {}) ∧
        linesWithEnds ((linesWithEnds text).drop (n + 1)).flatten =
          (linesWithEnds text).drop (n + 1) := by
  induction text using Text.lineInduction generalizing seen with
  | nil => exact ⟨fun _ => ⟨rfl, rfl⟩, fun n hn => nomatch hn⟩
  | last body hne hbody =>
    have hnone : openingLine? body = none := by
      have hlast : body.getLast? ≠ some '\n' := fun hl => hbody (List.mem_of_getLast? hl)
      have hcloses : opensCode body = false := by
        rw [opensCode, beq_eq_false_iff_ne.2 hlast, Bool.false_and]
      rw [openingLine?, Text.linesWithEnds_of_not_mem hne hbody, List.findIdx?_singleton, hcloses]
      rfl
    rw [hnone]
    refine ⟨fun _ => ?_, fun n hn => nomatch hn⟩
    have hrun := Tracker.run_seeking seen [] hbody
    exact ⟨congrArg Tracker.phase hrun, congrArg Tracker.seen hrun⟩
  | line body cs hbody ih =>
    have hline : body ++ '\n' :: cs = (body ++ ['\n']) ++ cs := by simp
    have hrun := Tracker.run_seeking_line seen hbody
    rw [openingLine?, Text.linesWithEnds_append cs hbody, List.findIdx?_cons]
    cases hopens : opensCode (body ++ ['\n']) with
    | true =>
      rw [hopens, if_pos rfl] at hrun
      rw [if_pos rfl]
      refine ⟨nofun, fun n hn => ?_⟩
      cases hn
      refine ⟨⟨_, by simpa using hrun⟩, ?_⟩
      simp [Text.flatten_linesWithEnds]
    | false =>
      rw [hopens, if_neg Bool.false_ne_true] at hrun
      rw [if_neg Bool.false_ne_true, hline, Tracker.run_append, hrun]
      obtain ⟨hseek, hfound⟩ := ih ((body ++ ['\n']).reverse ++ seen)
      refine ⟨fun hnone => ?_, fun n hn => ?_⟩
      · obtain ⟨hphase, hseen⟩ := hseek (Option.map_eq_none_iff.1 hnone)
        exact ⟨hphase, by rw [hseen]; simp⟩
      · obtain ⟨m, hm, rfl⟩ := Option.map_eq_some_iff.1 hn
        obtain ⟨⟨seen', hcode⟩, hlines⟩ := hfound m hm
        refine ⟨⟨seen', ?_⟩, hlines⟩
        rw [List.take_succ_cons, List.flatten_cons, Tracker.run_append, hrun, hcode]

/-! ## Whole answers -/

/-- An answer that is never left early is read up to its closing fence. -/
theorem feed_disabled (chunks : Nat) (t : Tracker) (cs : List Char) :
    t.feed .disabled chunks cs = (t.run cs, (t.run cs).phase == .closed) := by
  induction cs generalizing t with
  | nil => rfl
  | cons c cs ih =>
    unfold Tracker.feed
    have hgoes (t' : Tracker) : Tracker.completes .disabled chunks t t' c = false := by
      simp [Tracker.completes, EarlyStop.disabled]
    split
    · next hclosed =>
      rw [Tracker.run_of_closed hclosed, hclosed]
      rfl
    · dsimp only
      rw [hgoes, Bool.or_false]
      split
      · next hclosed =>
        have hclosed := of_decide_eq_true hclosed
        rw [Tracker.run_cons, Tracker.run_of_closed hclosed, hclosed]
        rfl
      · exact ih _

theorem codeOf_eq (text : List Char) : codeOf text = ((Tracker.seeking []).run text).finish := by
  rw [codeOf, feed_disabled]
  rfl

/-- The code of an answer with a fence. -/
theorem codeOf_of_codeLines {text : List Char} {lines : List (List Char)}
    (h : codeLines? text = some lines) : codeOf text = tidy (codeBefore lines) := by
  obtain ⟨n, hn, rfl⟩ := Option.map_eq_some_iff.1 h
  obtain ⟨⟨seen, hopening⟩, hlines⟩ := (run_prose text []).2 n hn
  have htext : ((linesWithEnds text).take (n + 1)).flatten ++
      ((linesWithEnds text).drop (n + 1)).flatten = text := by
    rw [← List.flatten_append, List.take_append_drop, Text.flatten_linesWithEnds]
  have hrun : (Tracker.seeking []).run text =
      (Tracker.atLine seen [] {}).run ((linesWithEnds text).drop (n + 1)).flatten := by
    rw [← hopening, ← Tracker.run_append, htext]
  rw [codeOf_eq, hrun]
  generalize (linesWithEnds text).drop (n + 1) = lines at hlines
  obtain ⟨hopen, hclosed⟩ := run_code lines.flatten seen [] {}
  rw [hlines] at hopen hclosed
  unfold codeBefore
  cases hclosing : closingLine? {} lines with
  | none =>
    obtain ⟨hphase, hcode⟩ := hopen hclosing
    rw [Tracker.finish, hphase]
    exact congrArg tidy hcode
  | some m =>
    obtain ⟨hcloses, after, hafter⟩ := hclosed m hclosing
    rw [← hafter, Tracker.run_append, Tracker.run_of_closed hcloses.closed, Tracker.finish,
      hcloses.closed]
    exact congrArg tidy hcloses.code

/-! ## Code that was put into a fence -/

/-- A text with code in a fence: lines that open no fence, the line that opens one, the code with or
without a newline more, and a closing fence with anything behind it. -/
inductive Wraps (code : List Char) : List Char → Prop
  | intro {prose opener body indent : List Char} (whole : Text.Whole prose)
      (plain : ∀ line ∈ linesWithEnds prose, opensCode line = false) (oneLine : '\n' ∉ opener)
      (opens : fence.isPrefixOf (Text.trimStart opener) = true)
      (same : body = code ∨ body = code ++ ['\n']) (ended : Text.Whole body)
      (blanks : ∀ c ∈ indent, isIndent c = true) (after : List Char) :
      Wraps code (prose ++ (opener ++ '\n' :: (body ++ (indent ++ fence ++ after))))

/-- A line end begins no string between backticks. -/
theorem inRawString_newline {l : Go.Lexer} (h : l.inRawString = false) :
    (l.step '\n').inRawString = false := by
  have hmode : (l.stepMode '\n').mode ≠ .raw := by
    have hraw : l.mode ≠ .raw := by simpa [Go.Lexer.inRawString] using h
    unfold Go.Lexer.stepMode
    cases hmode : l.mode with
    | code =>
      dsimp only
      rw [Go.Lexer.mode_code_newline hmode]
      exact Go.Mode.noConfusion
    | slash =>
      dsimp only
      rw [if_neg (by decide), if_neg (by decide),
        Go.Lexer.mode_code_newline (Go.Lexer.mode_token_slash l)]
      exact Go.Mode.noConfusion
    | raw => exact absurd hmode hraw
    | lineComment | blockComment | interpreted | rune =>
      simp [Go.Lexer.quoted, Go.Lexer.breakLiteral]
  simpa [Go.Lexer.inRawString, Go.Lexer.step] using hmode

theorem hasFence_newline (body : List Char) : hasFence (body ++ ['\n']) = hasFence body := by
  rw [hasFence, hasFence, List.dropWhile_append]
  split
  · next hblank =>
    rw [List.isEmpty_iff.1 hblank]
    rfl
  · exact isPrefixOf_fence_newline _

/-- A newline more does not close the code. -/
theorem closingLine?_newline {code : List Char} {l : Go.Lexer}
    (h : closingLine? l (linesWithEnds code) = none) :
    closingLine? l (linesWithEnds (code ++ ['\n'])) = none := by
  induction code using Text.lineInduction generalizing l with
  | nil =>
    have hline : hasFence ['\n'] = false := rfl
    rw [List.nil_append, show linesWithEnds ['\n'] = [['\n']] from rfl, closingLine?_cons, hline,
      Bool.and_false, if_neg Bool.false_ne_true]
    rfl
  | last body hne hbody =>
    rw [Text.linesWithEnds_of_not_mem hne hbody, closingLine?_cons] at h
    rw [Text.linesWithEnds_append [] hbody, closingLine?_cons, hasFence_newline]
    split at h
    · cases h
    · next hopen =>
      rw [if_neg hopen]
      rfl
  | line body cs hbody ih =>
    rw [Text.linesWithEnds_append cs hbody, closingLine?_cons] at h
    rw [List.append_assoc, List.cons_append, Text.linesWithEnds_append _ hbody, closingLine?_cons]
    split at h
    · cases h
    · next hopen =>
      rw [if_neg hopen, ih (Option.map_eq_none_iff.1 h)]
      rfl

/-- The first line that closes the code is the one behind lines that do not. -/
theorem closingLine?_append {l : Go.Lexer} {lines : List (List Char)}
    (h : closingLine? l lines = none) {line : List Char} (rest : List (List Char))
    (hcloses : (!(l.feed lines.flatten).inRawString && hasFence line) = true) :
    closingLine? l (lines ++ line :: rest) = some lines.length := by
  induction lines generalizing l with
  | nil =>
    rw [List.nil_append, closingLine?_cons]
    exact if_pos hcloses
  | cons first lines ih =>
    rw [closingLine?_cons] at h
    rw [List.cons_append, closingLine?_cons]
    split at h
    · cases h
    · next hopen =>
      rw [List.flatten_cons, Go.Lexer.feed_append] at hcloses
      rw [if_neg hopen, ih (Option.map_eq_none_iff.1 h) hcloses]
      rfl

/-- The closing fence stands in the first line of what begins with it. -/
theorem exists_closing_line {indent : List Char} (h : ∀ c ∈ indent, isIndent c = true)
    (after : List Char) :
    ∃ line rest, linesWithEnds (indent ++ fence ++ after) = line :: rest ∧ hasFence line = true := by
  have hline : '\n' ∉ indent ++ fence := by
    intro hmem
    rcases List.mem_append.1 hmem with hmem | hmem
    · exact absurd (h _ hmem) (by decide)
    · exact absurd hmem (by decide)
  have hfence (more : List Char) : hasFence (indent ++ fence ++ more) = true := by
    rw [hasFence, List.append_assoc, List.dropWhile_append_of_pos h]
    rfl
  by_cases hmem : '\n' ∈ after
  · obtain ⟨more, rest, rfl, hmore⟩ := List.eq_append_cons_of_mem hmem
    refine ⟨_, linesWithEnds rest, ?_, hfence (more ++ ['\n'])⟩
    rw [← List.append_assoc, Text.linesWithEnds_append rest fun hmem =>
      (List.mem_append.1 hmem).elim hline hmore, ← List.append_assoc]
  · refine ⟨_, [], ?_, hfence after⟩
    exact Text.linesWithEnds_of_not_mem (by simp [fence]) fun hmem' =>
      (List.mem_append.1 hmem').elim hline hmem

/-- The code in a fence is found again. -/
theorem codeOf_of_wraps {code text : List Char} (hwraps : Wraps code text)
    (hcode : closingLine? {} (linesWithEnds code) = none)
    (hends : (Go.Lexer.feed {} code).inRawString = false) : codeOf text = tidy code := by
  obtain @⟨prose, opener, body, indent, whole, plain, oneLine, opens, same, ended, blanks, after⟩ :=
    hwraps
  have hlines : codeLines? (prose ++ (opener ++ '\n' :: (body ++ (indent ++ fence ++ after)))) =
      some (linesWithEnds body ++ linesWithEnds (indent ++ fence ++ after)) := by
    have hprose : (linesWithEnds prose).findIdx? opensCode = none :=
      List.findIdx?_eq_none_iff.2 plain
    rw [codeLines?, openingLine?, whole.linesWithEnds_append, Text.linesWithEnds_append _ oneLine,
      List.findIdx?_append, hprose, List.findIdx?_cons, opensCode_newline, if_pos opens,
      ended.linesWithEnds_append]
    simp
  obtain ⟨line, rest, hclosing, hfence⟩ := exists_closing_line blanks after
  have hbody : closingLine? {} (linesWithEnds body) = none ∧
      (Go.Lexer.feed {} body).inRawString = false ∧ tidy body = tidy code := by
    rcases same with rfl | rfl
    · exact ⟨hcode, hends, rfl⟩
    · refine ⟨closingLine?_newline hcode, ?_, tidy_newline code⟩
      rw [Go.Lexer.feed_append]
      exact inRawString_newline hends
  obtain ⟨hnone, hraw, htidy⟩ := hbody
  have hcloses : closingLine? {} (linesWithEnds body ++ line :: rest) =
      some (linesWithEnds body).length := by
    refine closingLine?_append hnone rest ?_
    rw [Text.flatten_linesWithEnds, hraw, hfence]
    rfl
  rw [codeOf_of_codeLines hlines, hclosing, codeBefore, hcloses]
  dsimp only
  rw [List.take_left, Text.flatten_linesWithEnds, htidy]

/-- The code of an answer with a fence is what stands in front of the line that closes it, tidied.
So code that was put into a fence is found again: no line of it would close the fence, and it does
not break off in a string between backticks. -/
theorem codeOf_fenced :
    (∀ text lines, codeLines? text = some lines →
      codeOf text = tidy (codeBefore lines) ∧ Tidied (codeBefore lines) (codeOf text)) ∧
    ∀ code text, Wraps code text → closingLine? {} (linesWithEnds code) = none →
      (Go.Lexer.feed {} code).inRawString = false →
      codeOf text = tidy code ∧ Tidied code (codeOf text) := by
  refine ⟨fun text lines h => ?_, fun code text hwraps hcode hends => ?_⟩
  · rw [codeOf_of_codeLines h]
    exact ⟨rfl, tidied_tidy _⟩
  · rw [codeOf_of_wraps hwraps hcode hends]
    exact ⟨rfl, tidied_tidy code⟩

/-- Code with a line of three backticks that ends a string between backticks. -/
def quoting : List Char := "\npackage x\n\nvar q = \x60\n\x60\x60\x60 + \x60\n\x60\n".toList

/-- An answer with that code. -/
def quotingAnswer : List Char :=
  "Sure.\n".toList ++ ("\x60\x60\x60go".toList ++ '\n' ::
    (quoting ++ ("\t ".toList ++ fence ++ "\nDone.".toList)))

theorem codeOf_fenced_quoting :
    (∃ lines, codeLines? quotingAnswer = some lines ∧ codeBefore lines = quoting ∧
      codeOf quotingAnswer = tidy quoting) ∧
    Wraps quoting quotingAnswer ∧ closingLine? {} (linesWithEnds quoting) = none ∧
      (Go.Lexer.feed {} quoting).inRawString = false ∧ Tidied quoting (codeOf quotingAnswer) := by
  have hlines : codeLines? quotingAnswer = some ((linesWithEnds quotingAnswer).drop 2) := by
    decide +kernel
  have hbefore : codeBefore ((linesWithEnds quotingAnswer).drop 2) = quoting := by decide +kernel
  have hwraps : Wraps quoting quotingAnswer :=
    .intro (.inr (by decide +kernel)) (by decide +kernel) (by decide +kernel) (by decide +kernel)
      (.inl rfl) (.inr (by decide +kernel)) (List.all_eq_true.1 (by decide +kernel)) _
  have hcode : closingLine? {} (linesWithEnds quoting) = none := by decide +kernel
  have hends : (Go.Lexer.feed {} quoting).inRawString = false := by decide +kernel
  refine ⟨⟨_, hlines, hbefore, ?_⟩, hwraps, hcode, hends,
    (codeOf_fenced.2 quoting quotingAnswer hwraps hcode hends).2⟩
  rw [(codeOf_fenced.1 quotingAnswer _ hlines).1, hbefore]

end Recast.Reply
