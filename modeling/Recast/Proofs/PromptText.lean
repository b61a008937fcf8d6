/-
  Proofs/PromptText.lean --- the source of a file can be read back from its prompt.

  The fence has more backticks than any run in the source (`replicate_infix_iff`), so no line of the
  source begins with it.  What stands behind the opening fence up to the next line that begins with
  one is therefore the source, whatever the source or the parts in front of it imitate
  (`build_quotes`).
-/
import Recast.Proofs.Text.Lines
import Recast.Proofs.Text.Utf8
import Recast.PromptText

set_option autoImplicit false

namespace Recast.PromptText

open Text (linesWithEnds Whole)

/-! ## Runs of a character -/

/-- What lacks a character lies on one side of it. -/
theorem infix_append_cons_iff {x : Char} {part : List Char} (h : x ∉ part) (before after : List Char) :
    part <:+: before ++ x :: after ↔ part <:+: before ∨ part <:+: after := by
  -- A piece that would begin at `x` is empty, for it lacks `x`.
  have hempty : ∀ {piece : List Char}, x ∉ piece → piece <+: x :: after → piece = [] := by
    intro piece hx hprefix
    rcases List.prefix_cons_iff.1 hprefix with hnil | ⟨rest, rfl, -⟩
    · exact hnil
    · exact absurd List.mem_cons_self hx
  constructor
  · intro hpart
    rcases List.infix_append_iff.1 hpart with hleft | hright | ⟨left, right, rfl, hleft, hright⟩
    · exact .inl hleft
    · rcases List.infix_cons_iff.1 hright with hprefix | hafter
      · rw [hempty h hprefix]
        exact .inl List.nil_infix
      · exact .inr hafter
    · have hx : x ∉ right := fun hmem => h (List.mem_append_right _ hmem)
      rw [hempty hx hright, List.append_nil]
      exact .inl hleft.isInfix
  · rintro (hbefore | hafter)
    · exact hbefore.trans (List.prefix_append _ _).isInfix
    · exact (List.infix_cons hafter).trans (List.suffix_append _ _).isInfix

/-- The longest run of a text behind `current` of the character is that of both together. -/
theorem replicate_infix_append_iff {k current : Nat} {c : Char} {cs : List Char} :
    List.replicate k c <:+: List.replicate current c ++ cs ↔ k ≤ longestRun c current cs := by
  induction cs generalizing current with
  | nil => simp [longestRun, List.infix_replicate_iff]
  | cons x cs ih =>
    by_cases hx : x = c
    · subst hx
      have hmove : List.replicate current x ++ x :: cs = List.replicate (current + 1) x ++ cs := by
        simp [List.replicate_succ']
      rw [hmove, ih, longestRun, if_pos rfl]
    · have hsides : List.replicate k c <:+: List.replicate current c ++ x :: cs ↔
          List.replicate k c <:+: List.replicate current c ∨ List.replicate k c <:+: cs :=
        infix_append_cons_iff (by simp [hx]) _ _
      have hbefore : List.replicate k c <:+: List.replicate current c ↔ k ≤ current := by
        simp [List.infix_replicate_iff]
      have hbehind : List.replicate k c <:+: cs ↔ k ≤ longestRun c 0 cs := by
        simpa using @ih 0
      rw [hsides, hbefore, hbehind, longestRun, if_neg hx]
      omega

/-- A text has runs of a character up to the longest one. -/
theorem replicate_infix_iff {k : Nat} {c : Char} {cs : List Char} :
    List.replicate k c <:+: cs ↔ k ≤ longestRun c 0 cs := by
  simpa using @replicate_infix_append_iff k 0 c cs

/-! ## Fences -/

/-- A number of backticks. -/
def ticks (n : Nat) : List Char := List.replicate n '\x60'

/-- The number of backticks in the fence around a source. -/
def fenceSize (source : List Char) : Nat := max 3 (longestRun '\x60' 0 source + 1)

@[simp] theorem toList_fence (source : List Char) :
    (fence source).toList = ticks (fenceSize source) := by
  simp [fence, ticks, fenceSize]

theorem eq_tick_of_mem_ticks {n : Nat} {c : Char} (h : c ∈ ticks n) : c = '\x60' :=
  List.eq_of_mem_replicate h

theorem newline_not_mem_ticks (n : Nat) : '\n' ∉ ticks n := by
  intro h
  exact absurd (eq_tick_of_mem_ticks h) (by decide)

theorem three_le_fenceSize (source : List Char) : 3 ≤ fenceSize source :=
  Nat.le_max_left _ _

/-- The fence is longer than any run of backticks in the source. -/
theorem lt_fenceSize {source : List Char} {k : Nat} (h : ticks k <:+: source) :
    k < fenceSize source := by
  have hrun : k ≤ longestRun '\x60' 0 source := replicate_infix_iff.1 h
  simp only [fenceSize]
  omega

theorem ticks_fenceSize_absent (source : List Char) : ¬ticks (fenceSize source) <:+: source := by
  intro h
  exact absurd (lt_fenceSize h) (Nat.lt_irrefl _)

/-! ## The source between its fences -/

theorem whole_of_newline (cs : List Char) : Whole (cs ++ ['\n']) := .inr List.getLast?_concat

/-- A source, with a newline behind it if it has none at its end. -/
structure IsEnded (source ended : List Char) : Prop where
  same : source.getLast? = some '\n' → ended = source
  added : source.getLast? ≠ some '\n' → ended = source ++ ['\n']

theorem isEnded_withFinalNewline (s : String) :
    IsEnded s.toList (withFinalNewline s).toList := by
  constructor
  · intro h
    rw [withFinalNewline, if_pos h]
  · intro h
    rw [withFinalNewline, if_neg h]
    simp

namespace IsEnded

variable {source ended : List Char}

theorem whole (h : IsEnded source ended) : Whole ended := by
  by_cases hlast : source.getLast? = some '\n'
  · rw [h.same hlast]
    exact .inr hlast
  · rw [h.added hlast]
    exact whole_of_newline source

/-- A newline at the end brings no backticks in. -/
theorem ticks_source (h : IsEnded source ended) {n : Nat} (hpart : ticks n <:+: ended) :
    ticks n <:+: source := by
  by_cases hlast : source.getLast? = some '\n'
  · rwa [h.same hlast] at hpart
  · rw [h.added hlast] at hpart
    rcases (infix_append_cons_iff (newline_not_mem_ticks n) source []).1 hpart with hbefore | hnil
    · exact hbefore
    · rw [List.infix_nil.1 hnil]
      exact List.nil_infix

/-- No line of the source begins with backticks that do not occur in it. -/
theorem not_isPrefixOf (h : IsEnded source ended) {n : Nat} (habsent : ¬ticks n <:+: source) :
    ∀ line ∈ linesWithEnds ended, (ticks n).isPrefixOf line = false := by
  intro line hline
  have hpart : line <:+: ended := by
    have hflatten := List.infix_of_mem_flatten hline
    rwa [Text.flatten_linesWithEnds] at hflatten
  rw [Bool.eq_false_iff]
  intro hprefix
  have hticks := (List.isPrefixOf_iff_prefix.1 hprefix).isInfix.trans hpart
  exact habsent (h.ticks_source hticks)

end IsEnded

/-- The line that opens a source. -/
def openingLine (n : Nat) : List Char := ticks n ++ "python\n".toList

/-- The line that closes a source. -/
def closingLine (n : Nat) : List Char := ticks n ++ ['\n']

theorem isPrefixOf_closingLine (n : Nat) : (ticks n).isPrefixOf (closingLine n) = true :=
  List.isPrefixOf_iff_prefix.2 (List.prefix_append _ _)

theorem linesWithEnds_openingLine (n : Nat) (cs : List Char) :
    linesWithEnds (openingLine n ++ cs) = openingLine n :: linesWithEnds cs := by
  have hbody : '\n' ∉ ticks n ++ "python".toList := by
    intro hmem
    rcases List.mem_append.1 hmem with hticks | hword
    · exact newline_not_mem_ticks n hticks
    · exact absurd hword (by decide)
  have hline : openingLine n ++ cs = (ticks n ++ "python".toList) ++ '\n' :: cs := by
    simp [openingLine]
  rw [hline, Text.linesWithEnds_append cs hbody]
  simp [openingLine]

theorem linesWithEnds_closingLine (n : Nat) : linesWithEnds (closingLine n) = [closingLine n] :=
  Text.linesWithEnds_append [] (newline_not_mem_ticks n)

/-- A prompt ends with a source between fences of `n` backticks, behind the lines `before`. -/
structure Quotes (prompt source : List Char) (n : Nat) (before : List (List Char))
    (ended : List Char) : Prop where
  isEnded : IsEnded source ended
  lines : linesWithEnds prompt =
    before ++ openingLine n :: (linesWithEnds ended ++ [closingLine n])
  three_le : 3 ≤ n
  longer : ∀ k, ticks k <:+: source → k < n
  absent : ¬ticks n <:+: source
  /-- Of the lines behind the opening one the closing one is the first that begins with a fence. -/
  first : (linesWithEnds ended ++ [closingLine n]).findIdx? (ticks n).isPrefixOf =
    some (linesWithEnds ended).length

/-- A source between its fences, behind whole lines. -/
theorem quotes_fenced {before source ended : List Char} (hbefore : Whole before)
    (hended : IsEnded source ended) :
    Quotes (before ++ (openingLine (fenceSize source) ++ (ended ++ closingLine (fenceSize source))))
      source (fenceSize source) (linesWithEnds before) ended where
  isEnded := hended
  lines := by
    rw [hbefore.linesWithEnds_append, linesWithEnds_openingLine, hended.whole.linesWithEnds_append,
      linesWithEnds_closingLine]
  three_le := three_le_fenceSize source
  longer := fun _ => lt_fenceSize
  absent := ticks_fenceSize_absent source
  first := by
    have hnone := List.findIdx?_eq_none_iff.2 (hended.not_isPrefixOf (ticks_fenceSize_absent source))
    rw [List.findIdx?_append, hnone]
    simp [isPrefixOf_closingLine]

/-! ## Reading the source back -/

/-- The source at the end of a prompt: the lines in front of the last one, from behind the last of
them that begins with the fence of that one. -/
def sourceIn (prompt : List Char) : List Char :=
  match (linesWithEnds prompt).reverse with
  | [] => []
  | closing :: lines =>
    let fence := closing.takeWhile (· == '\x60')
    (lines.takeWhile fun line => !fence.isPrefixOf line).reverse.flatten

theorem takeWhile_closingLine (n : Nat) :
    (closingLine n).takeWhile (· == '\x60') = ticks n := by
  have hticks : ∀ c ∈ ticks n, (c == '\x60') = true := by
    intro c hc
    simpa using eq_tick_of_mem_ticks hc
  rw [closingLine, List.takeWhile_append_of_pos hticks]
  simp

/-- The fences alone tell where the source begins and ends. -/
theorem Quotes.sourceIn_eq {prompt source : List Char} {n : Nat} {before : List (List Char)}
    {ended : List Char} (h : Quotes prompt source n before ended) : sourceIn prompt = ended := by
  have hreverse : (linesWithEnds prompt).reverse =
      closingLine n :: ((linesWithEnds ended).reverse ++ openingLine n :: before.reverse) := by
    rw [h.lines]
    simp
  have hopening : (ticks n).isPrefixOf (openingLine n) = true :=
    List.isPrefixOf_iff_prefix.2 (List.prefix_append _ _)
  have hinside : ∀ line ∈ (linesWithEnds ended).reverse, (!(ticks n).isPrefixOf line) = true := by
    intro line hline
    rw [h.isEnded.not_isPrefixOf h.absent line (List.mem_reverse.1 hline)]
    rfl
  rw [sourceIn, hreverse]
  simp only [takeWhile_closingLine]
  rw [List.takeWhile_append_of_pos hinside, List.takeWhile_cons_of_neg (by simp [hopening])]
  simp [Text.flatten_linesWithEnds]

/-! ## Prompts -/

theorem toList_append_sourcePart (front fileName source : String) :
    (front ++ sourcePart fileName source).toList =
      (front ++ "\nSource (" ++ fileName ++ "):").toList ++ ['\n'] ++
        (openingLine (fenceSize source.toList) ++
          ((withFinalNewline source).toList ++ closingLine (fenceSize source.toList))) := by
  simp [sourcePart, openingLine, closingLine]

/-- A prompt ends with the text of the file between fences. -/
theorem exists_quotes_build (topK : Nat) (file : SourceFile) (o : Outline)
    (related : List Meaning.Match) (hints : List String) (package : String) :
    ∃ before, Quotes (build topK file o related hints package).user.toList file.text.toList
      (fenceSize file.text.toList) before (withFinalNewline file.text).toList := by
  obtain ⟨front, hfront⟩ : ∃ front, (build topK file o related hints package).user =
      front ++ sourcePart file.path.fileName file.text := ⟨_, rfl⟩
  have hquotes := quotes_fenced
    (whole_of_newline (front ++ "\nSource (" ++ file.path.fileName ++ "):").toList)
    (isEnded_withFinalNewline file.text)
  rw [← toList_append_sourcePart, ← hfront] at hquotes
  exact ⟨_, hquotes⟩

/-- Whatever the file, the facts about it, the related places, the hints and the package, the prompt
ends with the source between fences longer than any run of backticks in it, and the source can be
read back from the prompt. -/
theorem build_quotes (topK : Nat) (file : SourceFile) (o : Outline) (related : List Meaning.Match)
    (hints : List String) (package : String) :
    ∃ n before ended,
      Quotes (build topK file o related hints package).user.toList file.text.toList n before ended ∧
        sourceIn (build topK file o related hints package).user.toList = ended := by
  obtain ⟨before, hquotes⟩ := exists_quotes_build topK file o related hints package
  exact ⟨_, before, _, hquotes, hquotes.sourceIn_eq⟩

/-- The bytes of a text are quoted as that text. -/
theorem build_quotes_encoded (topK : Nat) {file : SourceFile} {s : String}
    (hcontent : file.content = s.toUTF8) (o : Outline) (related : List Meaning.Match)
    (hints : List String) (package : String) :
    ∃ n before ended,
      Quotes (build topK file o related hints package).user.toList s.toList n before ended ∧
        sourceIn (build topK file o related hints package).user.toList = ended := by
  have htext : file.text = s := by
    rw [SourceFile.text, hcontent, Text.Utf8.decodeLossy_toUTF8]
  obtain ⟨before, hquotes⟩ := exists_quotes_build topK file o related hints package
  rw [htext] at hquotes
  exact ⟨_, before, _, hquotes, hquotes.sourceIn_eq⟩

/-- A file with letters that take several bytes and a fence of its own. -/
theorem build_quotes_encoded_fence :
    let s := "# \u00FCber\n\x60\x60\x60\n"
    let prompt := (build 5 ⟨⟨"a.py"⟩, s.toUTF8, none⟩ {} [] [] "common").user.toList
    ∃ n before ended, Quotes prompt s.toList n before ended ∧ sourceIn prompt = ended :=
  build_quotes_encoded 5 rfl {} [] [] "common"

/-- A source that imitates the beginning and the end of itself in a prompt. -/
example : sourceIn (sourcePart "a.py" "\x60\x60\x60python\nx = 1\n\x60\x60\x60").toList =
    "\x60\x60\x60python\nx = 1\n\x60\x60\x60\n".toList := by
  decide +kernel

end Recast.PromptText
