/-
  Proofs/Go/Grammar.lean --- the texts that pass for Go, said without a lexer.

  A text is cut into pieces: comments, literals, delimiters and other characters (`Cut`).  It passes
  when its delimiters are nested and its first two tokens are a package clause (`IsGo`).  Nesting has
  two forms here, as a grammar (`Nested`) and as a stack of open delimiters (`nest`), which agree
  (`nest_eq_nil_iff`).
-/
import Recast.Go.Lexer

set_option autoImplicit false

namespace Recast.Go

open Lexer (isOpener isCloser openerOf isIdentifier)

/-! ## Pieces -/

/-- What may stand between two quotes: a backslash takes the next character with it, and no line
ends. -/
inductive QuotedBody (quote : Char) : List Char → Prop where
  | nil : QuotedBody quote []
  | plain {c : Char} {body : List Char} (hquote : c ≠ quote) (hescape : c ≠ '\\')
      (hline : c ≠ '\n') : QuotedBody quote body → QuotedBody quote (c :: body)
  | escaped {c : Char} {body : List Char} (hline : c ≠ '\n') :
      QuotedBody quote body → QuotedBody quote ('\\' :: c :: body)

/-- A piece of a text. -/
inductive Piece where
  /-- A comment up to the end of its line. -/
  | lineComment (body : List Char)
  /-- A comment between stars. -/
  | blockComment (body : List Char)
  /-- A string or a character literal. -/
  | quoted (quote : Char) (body : List Char)
  /-- A string between backticks. -/
  | raw (body : List Char)
  | delimiter (c : Char)
  | other (c : Char)

namespace Piece

/-- How a piece is written. -/
def text : Piece → List Char
  | lineComment body => '/' :: '/' :: body
  | blockComment body => '/' :: '*' :: (body ++ ['*', '/'])
  | quoted quote body => quote :: (body ++ [quote])
  | raw body => '\x60' :: (body ++ ['\x60'])
  | delimiter c => [c]
  | other c => [c]

/-- Whether something is a piece when the given text follows it. -/
def Fits : Piece → List Char → Prop
  | lineComment body, rest => '\n' ∉ body ∧ (rest = [] ∨ rest.head? = some '\n')
  | blockComment body, _ => ¬['*', '/'] <:+: body
  | quoted quote body, _ => (quote = '"' ∨ quote = '\'') ∧ QuotedBody quote body
  | raw body, _ => '\x60' ∉ body
  | delimiter c, _ => isOpener c = true ∨ isCloser c = true
  | other c, rest =>
    isOpener c = false ∧ isCloser c = false ∧ c ≠ '"' ∧ c ≠ '\'' ∧ c ≠ '\x60' ∧
      (c = '/' → rest.head? ≠ some '/' ∧ rest.head? ≠ some '*')

/-- The delimiter that a piece is. -/
def delimiters : Piece → List Char
  | delimiter c => [c]
  | _ => []

/-- What tokens are made from: a literal shows by its opening quote, a comment like a blank. -/
def shown : Piece → List Char
  | lineComment _ => [' ']
  | blockComment _ => [' ']
  | quoted quote _ => [quote]
  | raw _ => ['\x60']
  | delimiter c => [c]
  | other c => [c]

end Piece

/-- The pieces that a text is cut into. -/
inductive Cut : List Piece → List Char → Prop where
  | nil : Cut [] []
  | cons {p : Piece} {ps : List Piece} {rest : List Char} :
      p.Fits rest → Cut ps rest → Cut (p :: ps) (p.text ++ rest)

/-! ## Nesting -/

/-- The delimiters that belong together. -/
def delimiterPairs : List (Char × Char) := [('(', ')'), ('[', ']'), ('{', '}')]

/-- Delimiters that are properly nested. -/
inductive Nested : List Char → Prop where
  | nil : Nested []
  | pair {opener closer : Char} {inner rest : List Char} :
      (opener, closer) ∈ delimiterPairs → Nested inner → Nested rest →
        Nested (opener :: (inner ++ closer :: rest))

/-- The open delimiters after one more, innermost first, unless it is a closer that does not fit. -/
def nestOne (opened : List Char) (c : Char) : Option (List Char) :=
  if isOpener c then some (c :: opened)
  else
    match opened with
    | opener :: rest => if opener = openerOf c then some rest else none
    | [] => none

/-- The open delimiters after more of them. -/
def nest (opened : List Char) (cs : List Char) : Option (List Char) := cs.foldlM nestOne opened

@[simp] theorem nest_nil (opened : List Char) : nest opened [] = some opened := rfl

theorem nest_cons (opened : List Char) (c : Char) (cs : List Char) :
    nest opened (c :: cs) = (nestOne opened c).bind fun after => nest after cs := rfl

theorem nest_append (opened cs ds : List Char) :
    nest opened (cs ++ ds) = (nest opened cs).bind fun after => nest after ds :=
  List.foldlM_append

theorem nestOne_opener {c : Char} (h : isOpener c = true) (opened : List Char) :
    nestOne opened c = some (c :: opened) := by
  simp [nestOne, h]

theorem of_mem_delimiterPairs {opener closer : Char} (h : (opener, closer) ∈ delimiterPairs) :
    isOpener opener = true ∧ isOpener closer = false ∧ openerOf closer = opener := by
  simp only [delimiterPairs, List.mem_cons, Prod.mk.injEq, List.not_mem_nil, or_false] at h
  rcases h with ⟨rfl, rfl⟩ | ⟨rfl, rfl⟩ | ⟨rfl, rfl⟩ <;> decide

theorem mem_delimiterPairs_of_isCloser {c : Char} (h : isCloser c = true) :
    (openerOf c, c) ∈ delimiterPairs ∧ isOpener c = false := by
  simp only [isCloser, Bool.or_eq_true, beq_iff_eq] at h
  rcases h with (rfl | rfl) | rfl <;> decide

/-- Nested delimiters leave the open ones as they are. -/
theorem Nested.nest_eq {cs : List Char} (h : Nested cs) (opened : List Char) :
    nest opened cs = some opened := by
  induction h generalizing opened with
  | nil => rfl
  | @pair opener closer inner rest hpair _ _ ihinner ihrest =>
    obtain ⟨hopener, hcloser, hmatch⟩ := of_mem_delimiterPairs hpair
    have hclose : nestOne (opener :: opened) closer = some opened := by
      simp [nestOne, hcloser, hmatch]
    rw [nest_cons, nestOne_opener hopener, Option.bind_some, nest_append, ihinner,
      Option.bind_some, nest_cons, hclose, Option.bind_some, ihrest]

/-- Delimiters that close the open ones from the innermost on, with nested ones before each. -/
def Closes : List Char → List Char → Prop
  | [], cs => Nested cs
  | opener :: opened, cs =>
    ∃ inner closer rest, cs = inner ++ closer :: rest ∧ (opener, closer) ∈ delimiterPairs ∧
      Nested inner ∧ Closes opened rest

/-- A nested pair in front changes nothing. -/
theorem Closes.pair {opener closer : Char} {inner cs opened : List Char}
    (hpair : (opener, closer) ∈ delimiterPairs) (hinner : Nested inner) (h : Closes opened cs) :
    Closes opened (opener :: (inner ++ closer :: cs)) := by
  cases opened with
  | nil => exact Nested.pair hpair hinner h
  | cons outer opened =>
    obtain ⟨before, last, rest, rfl, hlast, hbefore, hrest⟩ := h
    exact ⟨opener :: (inner ++ closer :: before), last, rest, by simp, hlast,
      Nested.pair hpair hinner hbefore, hrest⟩

theorem closes_of_nest {opened cs : List Char}
    (hcs : ∀ c ∈ cs, isOpener c = true ∨ isCloser c = true) (h : nest opened cs = some []) :
    Closes opened cs := by
  induction cs generalizing opened with
  | nil =>
    cases h
    exact .nil
  | cons c cs ih =>
    have hrest : ∀ d ∈ cs, isOpener d = true ∨ isCloser d = true := fun d hd => hcs d (.tail _ hd)
    rw [nest_cons] at h
    cases hopener : isOpener c with
    | true =>
      rw [nestOne_opener hopener, Option.bind_some] at h
      obtain ⟨inner, closer, rest, rfl, hpair, hinner, hcloses⟩ := ih hrest h
      exact hcloses.pair hpair hinner
    | false =>
      have hcloser : isCloser c = true := (hcs c (.head _)).resolve_left (by simp [hopener])
      cases opened with
      | nil => simp [nestOne, hopener] at h
      | cons opener opened =>
        by_cases hmatch : opener = openerOf c
        · simp only [nestOne, hopener, hmatch, if_true, Bool.false_eq_true, if_false,
            Option.bind_some] at h
          subst hmatch
          exact ⟨[], c, cs, rfl, (mem_delimiterPairs_of_isCloser hcloser).1, .nil, ih hrest h⟩
        · simp [nestOne, hopener, hmatch] at h

/-- Delimiters are nested exactly if none is left open and no closer fails to fit. -/
theorem nest_eq_nil_iff {cs : List Char} (h : ∀ c ∈ cs, isOpener c = true ∨ isCloser c = true) :
    nest [] cs = some [] ↔ Nested cs :=
  ⟨closes_of_nest h, fun hnested => hnested.nest_eq []⟩

/-! ## Tokens -/

/-- The tokens of a text without comments and literals: longest runs of word characters, and
single characters that are neither such nor blank. -/
def tokens : List Char → List (List Char)
  | [] => []
  | c :: cs =>
    if Text.isWordChar c then
      (c :: cs.takeWhile Text.isWordChar) :: tokens (cs.dropWhile Text.isWordChar)
    else if Text.isBlank c then tokens cs
    else [c] :: tokens cs
termination_by cs => cs.length
decreasing_by
  · exact Nat.lt_succ_of_le (List.dropWhile_suffix _).length_le
  · exact Nat.lt_succ_self _
  · exact Nat.lt_succ_self _

/-- Every character of a token is in the text. -/
theorem mem_of_mem_tokens {cs token : List Char} {c : Char} (h : token ∈ tokens cs)
    (hc : c ∈ token) : c ∈ cs := by
  fun_induction tokens cs with
  | case1 => cases h
  | case2 d cs hword ih =>
    rcases List.mem_cons.1 h with rfl | h
    · rcases List.mem_cons.1 hc with rfl | hc
      · exact .head _
      · exact .tail _ ((List.takeWhile_prefix _).subset hc)
    · exact .tail _ ((List.dropWhile_suffix _).subset (ih h))
  | case3 d cs hword hblank ih => exact .tail _ (ih h)
  | case4 d cs hword hblank ih =>
    rcases List.mem_cons.1 h with rfl | h
    · rw [List.mem_singleton.1 hc]
      exact .head _
    · exact .tail _ (ih h)

/-- The delimiters of a text in pieces. -/
def delimiters (ps : List Piece) : List Char := ps.flatMap Piece.delimiters

/-- What the tokens of a text in pieces are made from. -/
def shown (ps : List Piece) : List Char := ps.flatMap Piece.shown

/-- A text in pieces that passes for Go. -/
structure IsGo (ps : List Piece) (text : List Char) : Prop where
  cut : Cut ps text
  nested : Nested (delimiters ps)
  /-- The first two tokens are the keyword of a package clause and an identifier. -/
  clause : ∃ name rest, tokens (shown ps) = "package".toList :: name :: rest ∧
    isIdentifier name = true

/-- What shows of a text is in it, except for the blanks that stand for comments. -/
theorem Cut.mem_of_mem_shown {ps : List Piece} {text : List Char} (h : Cut ps text) {c : Char}
    (hc : c ∈ shown ps) (hblank : c ≠ ' ') : c ∈ text := by
  induction h with
  | nil => cases hc
  | @cons p ps rest _ _ ih =>
    rcases List.mem_append.1 (show c ∈ p.shown ++ shown ps from hc) with hc | hc
    · refine List.mem_append_left _ ?_
      cases p <;> simp_all [Piece.shown, Piece.text]
    · exact List.mem_append_right _ (ih hc)

theorem Cut.delimiters_spec {ps : List Piece} {text : List Char} (h : Cut ps text) :
    ∀ c ∈ delimiters ps, isOpener c = true ∨ isCloser c = true := by
  induction h with
  | nil =>
    intro c hc
    cases hc
  | @cons p ps rest hfits _ ih =>
    intro c hc
    rcases List.mem_append.1 (show c ∈ p.delimiters ++ delimiters ps from hc) with hc | hc
    · cases p with
      | delimiter d =>
        rw [List.mem_singleton.1 hc]
        exact hfits
      | _ => cases hc
    · exact ih c hc

end Recast.Go
