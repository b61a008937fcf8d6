/-
  Proofs/Reply/Code.lean --- what tidying code takes away and what it adds.

  Tidied code is what is left between blank lines in front and blanks behind, and a newline
  (`tidied_tidy`).  One newline more at the end of the code makes no difference (`tidy_newline`).
-/
import Mathlib.Data.List.TakeWhile
import Recast.Proofs.Text.Lines
import Recast.Reply.Code

set_option autoImplicit false

namespace Recast.Reply

open Text (allBlank isBlank linesWithEnds trimEnd)

/-- The first line of a text, without its end. -/
def firstLine (cs : List Char) : List Char := cs.takeWhile (· != '\n')

/-- The shape that code gets: it loses blank lines in front of it and blanks behind it, and ends with
a newline; of blanks nothing is left. -/
inductive Tidied : List Char → List Char → Prop
  | blank {code : List Char} (nothing : allBlank code = true) : Tidied code []
  | kept {before code behind : List Char} (whole : Text.Whole before)
      (blankBefore : allBlank before = true) (blankBehind : allBlank behind = true)
      (first : allBlank (firstLine code) = false)
      (last : ∃ c, code.getLast? = some c ∧ isBlank c = false) :
      Tidied (before ++ code ++ behind) (code ++ ['\n'])

/-! ## Blank ends -/

theorem allBlank_append (cs ds : List Char) :
    allBlank (cs ++ ds) = (allBlank cs && allBlank ds) := List.all_append

/-- Trimming the end removes exactly a run of blanks. -/
theorem exists_trimEnd_append (cs : List Char) :
    ∃ behind, cs = trimEnd cs ++ behind ∧ allBlank behind = true := by
  refine ⟨(cs.reverse.takeWhile isBlank).reverse, ?_, ?_⟩
  · rw [trimEnd, Text.dropEnd, ← List.reverse_append, List.takeWhile_append_dropWhile,
      List.reverse_reverse]
  · rw [allBlank, List.all_reverse]
    exact List.all_takeWhile

/-- A trimmed text ends with something else than a blank. -/
theorem exists_getLast?_trimEnd {cs : List Char} (h : trimEnd cs ≠ []) :
    ∃ c, (trimEnd cs).getLast? = some c ∧ isBlank c = false := by
  unfold trimEnd Text.dropEnd at h ⊢
  rw [List.getLast?_reverse]
  cases hrest : cs.reverse.dropWhile isBlank with
  | nil => exact absurd (by rw [hrest]; rfl) h
  | cons c rest =>
    refine ⟨c, rfl, ?_⟩
    have hhead := List.head?_dropWhile_not isBlank cs.reverse
    rw [hrest] at hhead
    simpa using hhead

/-- A blank more at the end does not matter. -/
theorem trimEnd_concat {c : Char} (h : isBlank c = true) (cs : List Char) :
    trimEnd (cs ++ [c]) = trimEnd cs := by
  unfold trimEnd Text.dropEnd
  rw [List.reverse_append, List.reverse_singleton, List.singleton_append,
    List.dropWhile_cons_of_pos h]

/-! ## First lines -/

theorem firstLine_of_not_mem {body : List Char} (h : '\n' ∉ body) : firstLine body = body := by
  refine List.takeWhile_eq_self_iff.2 fun c hc => ?_
  simpa using fun heq : c = '\n' => h (heq ▸ hc)

theorem firstLine_append {body : List Char} (cs : List Char) (h : '\n' ∉ body) :
    firstLine (body ++ '\n' :: cs) = body := by
  have hbody : ∀ c ∈ body, (c != '\n') = true := fun c hc => by
    simpa using fun heq : c = '\n' => h (heq ▸ hc)
  rw [firstLine, List.takeWhile_append_of_pos hbody, List.takeWhile_cons_of_neg (by simp),
    List.append_nil]

/-- Blanks behind a text do not make its first line one that is not blank. -/
theorem allBlank_firstLine {cs behind : List Char} (hbehind : allBlank behind = true)
    (h : allBlank (firstLine cs) = true) : allBlank (firstLine (cs ++ behind)) = true := by
  have hmore : allBlank (firstLine behind) = true :=
    List.all_eq_true.2 fun c hc =>
      List.all_eq_true.1 hbehind c ((List.takeWhile_sublist _).subset hc)
  unfold firstLine at h hmore ⊢
  rw [List.takeWhile_append]
  split
  · next hwhole =>
    rw [(List.takeWhile_prefix _).eq_of_length hwhole] at h
    rw [allBlank_append, h, hmore]
    rfl
  · exact h

/-! ## Tidying -/

/-- Blank lines in front of code are left out. -/
theorem tidy_line {body : List Char} (hbody : '\n' ∉ body) (hblank : allBlank body = true)
    (cs : List Char) : tidy (body ++ '\n' :: cs) = tidy cs := by
  have hline : allBlank (body ++ ['\n']) = true := by
    rw [allBlank_append, hblank]
    rfl
  rw [tidy, tidy, Text.linesWithEnds_append cs hbody, List.dropWhile_cons_of_pos hline]

/-- Of blanks nothing is left. -/
theorem tidy_of_allBlank {cs : List Char} (h : allBlank cs = true) : tidy cs = [] := by
  induction cs using Text.lineInduction with
  | nil => rfl
  | last body hne hbody =>
    rw [tidy, Text.linesWithEnds_of_not_mem hne hbody, List.dropWhile_cons_of_pos h]
    rfl
  | line body cs hbody ih =>
    rw [allBlank_append, Bool.and_eq_true] at h
    rw [tidy_line hbody h.1]
    exact ih h.2

/-- Code whose first line is not blank loses blanks at its end only. -/
theorem tidy_of_not_blank {cs : List Char} (h : allBlank (firstLine cs) = false) :
    tidy cs = match trimEnd cs with
      | [] => []
      | trimmed => trimmed ++ ['\n'] := by
  have hlines : (linesWithEnds cs).dropWhile allBlank = linesWithEnds cs := by
    induction cs using Text.lineInduction with
    | nil => exact Bool.noConfusion h
    | last body hne hbody =>
      rw [firstLine_of_not_mem hbody] at h
      rw [Text.linesWithEnds_of_not_mem hne hbody,
        List.dropWhile_cons_of_neg (by rw [h]; exact Bool.false_ne_true)]
    | line body rest hbody _ =>
      rw [firstLine_append rest hbody] at h
      have hline : allBlank (body ++ ['\n']) = false := by
        rw [allBlank_append, h]
        rfl
      rw [Text.linesWithEnds_append rest hbody,
        List.dropWhile_cons_of_neg (by rw [hline]; exact Bool.false_ne_true)]
  change (match trimEnd ((linesWithEnds cs).dropWhile allBlank).flatten with
    | [] => []
    | trimmed => trimmed ++ ['\n']) = _
  rw [hlines, Text.flatten_linesWithEnds]

theorem tidied_of_not_blank {cs : List Char} (h : allBlank (firstLine cs) = false) :
    Tidied cs (tidy cs) := by
  obtain ⟨behind, hcs, hbehind⟩ := exists_trimEnd_append cs
  have hfirst : allBlank (firstLine (trimEnd cs)) = false := by
    refine Bool.eq_false_iff.2 fun hblank => ?_
    have hall := allBlank_firstLine hbehind hblank
    rw [← hcs, h] at hall
    exact Bool.noConfusion hall
  have hne : trimEnd cs ≠ [] := by
    intro hnil
    rw [hnil] at hfirst
    exact Bool.noConfusion hfirst
  have htidied : Tidied ([] ++ trimEnd cs ++ behind) (trimEnd cs ++ ['\n']) :=
    .kept (.inl rfl) rfl hbehind hfirst (exists_getLast?_trimEnd hne)
  rw [tidy_of_not_blank h]
  rw [List.nil_append, ← hcs] at htidied
  split
  · next hnil => exact absurd hnil hne
  · exact htidied

/-- A blank line in front of code is lost. -/
theorem Tidied.line {cs out body : List Char} (h : Tidied cs out) (hblank : allBlank body = true) :
    Tidied (body ++ '\n' :: cs) out := by
  cases h with
  | blank nothing =>
    refine .blank ?_
    rw [allBlank_append, hblank]
    exact nothing
  | @kept before code behind whole blankBefore blankBehind first last =>
    have hbefore : body ++ '\n' :: (before ++ code ++ behind) =
        body ++ '\n' :: before ++ code ++ behind := by
      simp only [List.append_assoc, List.cons_append]
    rw [hbefore]
    refine .kept (.inr ?_) ?_ blankBehind first last
    · rcases whole with rfl | hlast
      · exact List.getLast?_concat
      · rw [List.getLast?_append, List.getLast?_cons, hlast]
        rfl
    · rw [allBlank_append, hblank]
      exact blankBefore

/-- Tidying makes code tidy. -/
theorem tidied_tidy (cs : List Char) : Tidied cs (tidy cs) := by
  induction cs using Text.lineInduction with
  | nil => exact .blank rfl
  | last body hne hbody =>
    cases hblank : allBlank body with
    | true =>
      rw [tidy_of_allBlank hblank]
      exact .blank hblank
    | false => exact tidied_of_not_blank (by rw [firstLine_of_not_mem hbody, hblank])
  | line body cs hbody ih =>
    cases hblank : allBlank body with
    | true =>
      rw [tidy_line hbody hblank]
      exact ih.line hblank
    | false => exact tidied_of_not_blank (by rw [firstLine_append cs hbody, hblank])

/-- One newline more behind code makes no difference. -/
theorem tidy_newline (cs : List Char) : tidy (cs ++ ['\n']) = tidy cs := by
  have hsame {cs : List Char} (h : allBlank (firstLine cs) = false)
      (h' : allBlank (firstLine (cs ++ ['\n'])) = false) : tidy (cs ++ ['\n']) = tidy cs := by
    rw [tidy_of_not_blank h, tidy_of_not_blank h', trimEnd_concat (by decide)]
  induction cs using Text.lineInduction with
  | nil => rfl
  | last body hne hbody =>
    cases hblank : allBlank body with
    | true =>
      rw [tidy_line hbody hblank, tidy_of_allBlank hblank]
      rfl
    | false =>
      refine hsame ?_ ?_
      · rw [firstLine_of_not_mem hbody, hblank]
      · rw [firstLine_append [] hbody, hblank]
  | line body cs hbody ih =>
    cases hblank : allBlank body with
    | true =>
      rw [List.append_assoc, List.cons_append, tidy_line hbody hblank, tidy_line hbody hblank, ih]
    | false =>
      refine hsame ?_ ?_
      · rw [firstLine_append cs hbody, hblank]
      · rw [List.append_assoc, List.cons_append, firstLine_append _ hbody, hblank]

end Recast.Reply
