/-
  Proofs/Text/Lines.lean --- induction over the lines of a text.
-/
import Recast.Text.Blank
import Recast.Text.Lines

set_option autoImplicit false

namespace Recast.Text

/-- A text is empty, or one line without an end, or a line with its end in front of a text. -/
theorem lineInduction {motive : List Char → Prop} (nil : motive [])
    (last : ∀ body, body ≠ [] → '\n' ∉ body → motive body)
    (line : ∀ body cs, '\n' ∉ body → motive cs → motive (body ++ '\n' :: cs))
    (cs : List Char) : motive cs := by
  generalize hn : cs.length = n
  induction n using Nat.strongRecOn generalizing cs with
  | ind n ih =>
    by_cases hmem : '\n' ∈ cs
    · obtain ⟨body, rest, rfl, hbody⟩ := List.eq_append_cons_of_mem hmem
      refine line body rest hbody (ih rest.length ?_ rest rfl)
      rw [← hn, List.length_append, List.length_cons]
      omega
    · cases cs with
      | nil => exact nil
      | cons c cs => exact last _ (List.cons_ne_nil c cs) hmem

@[simp] theorem linesWithEnds_nil : linesWithEnds [] = [] := rfl

theorem linesWithEnds_of_not_mem {body : List Char} (hne : body ≠ []) (h : '\n' ∉ body) :
    linesWithEnds body = [body] := by
  induction body with
  | nil => exact absurd rfl hne
  | cons c cs ih =>
    have hc : c ≠ '\n' := (List.ne_of_not_mem_cons h).symm
    cases cs with
    | nil => simp [linesWithEnds, hc]
    | cons d ds =>
      have hds := ih (List.cons_ne_nil d ds) (List.not_mem_of_not_mem_cons h)
      rw [linesWithEnds, if_neg hc, hds]

theorem linesWithEnds_append {body : List Char} (cs : List Char) (h : '\n' ∉ body) :
    linesWithEnds (body ++ '\n' :: cs) = (body ++ ['\n']) :: linesWithEnds cs := by
  induction body with
  | nil => simp [linesWithEnds]
  | cons c rest ih =>
    have hc : c ≠ '\n' := (List.ne_of_not_mem_cons h).symm
    have hrest := ih (List.not_mem_of_not_mem_cons h)
    rw [List.cons_append, linesWithEnds, if_neg hc, hrest]
    rfl

/-- A text of whole lines: its last line has an end. -/
def Whole (cs : List Char) : Prop := cs = [] ∨ cs.getLast? = some '\n'

/-- The lines behind whole lines come behind them. -/
theorem Whole.linesWithEnds_append {cs : List Char} (h : Whole cs) (ds : List Char) :
    linesWithEnds (cs ++ ds) = linesWithEnds cs ++ linesWithEnds ds := by
  induction cs using lineInduction with
  | nil => rfl
  | last body hne hbody =>
    rcases h with rfl | hlast
    · exact absurd rfl hne
    · exact absurd (List.mem_of_getLast? hlast) hbody
  | line body cs hbody ih =>
    have hrest : Whole cs := by
      rcases h with h | h
      · exact absurd h (by simp)
      · cases cs with
        | nil => exact .inl rfl
        | cons c cs => exact .inr (by simpa [List.getLast?_append] using h)
    rw [List.append_assoc, List.cons_append, Text.linesWithEnds_append _ hbody, ih hrest,
      Text.linesWithEnds_append _ hbody, List.cons_append]

/-- A line with its end. -/
def Ended (line : List Char) : Prop := ∃ body, line = body ++ ['\n'] ∧ '\n' ∉ body

/-- All lines in front of a line of a text have an end, and so has the line unless it is the last
one. -/
theorem ended_of_linesWithEnds {cs : List Char} {before after : List (List Char)} {line : List Char}
    (h : linesWithEnds cs = before ++ line :: after) :
    (∀ x ∈ before, Ended x) ∧
      (Ended line ∧ linesWithEnds after.flatten = after ∨ '\n' ∉ line ∧ after = []) := by
  induction cs using lineInduction generalizing before with
  | nil => exact absurd h.symm (List.append_ne_nil_of_right_ne_nil _ (List.cons_ne_nil _ _))
  | last body hne hbody =>
    rw [linesWithEnds_of_not_mem hne hbody, eq_comm, List.append_eq_singleton_iff] at h
    rcases h with ⟨rfl, hline⟩ | ⟨-, hnil⟩
    · obtain ⟨rfl, rfl⟩ := List.cons.inj hline
      exact ⟨nofun, .inr ⟨hbody, rfl⟩⟩
    · exact absurd hnil (List.cons_ne_nil _ _)
  | line body cs hbody ih =>
    rw [linesWithEnds_append cs hbody] at h
    cases before with
    | nil =>
      obtain ⟨rfl, rfl⟩ := List.cons.inj h
      exact ⟨nofun, .inl ⟨⟨body, rfl, hbody⟩, by rw [flatten_linesWithEnds]⟩⟩
    | cons first before =>
      obtain ⟨rfl, hrest⟩ := List.cons.inj h
      obtain ⟨hbefore, hline⟩ := ih hrest
      exact ⟨List.forall_mem_cons.2 ⟨⟨body, rfl, hbody⟩, hbefore⟩, hline⟩

theorem linesWithEnds_flatten_append {before : List (List Char)} (h : ∀ x ∈ before, Ended x)
    (cs : List Char) : linesWithEnds (before.flatten ++ cs) = before ++ linesWithEnds cs := by
  induction before with
  | nil => rfl
  | cons first before ih =>
    obtain ⟨body, rfl, hbody⟩ := h first (.head _)
    rw [List.flatten_cons, List.append_assoc, List.append_assoc, List.singleton_append,
      linesWithEnds_append _ hbody, ih fun x hx => h x (.tail _ hx), List.cons_append]

theorem mem_head_linesWithEnds {body : List Char} (c : Char) (cs : List Char) (h : '\n' ∉ body) :
    ∃ line rest, linesWithEnds (body ++ c :: cs) = line :: rest ∧ c ∈ line := by
  induction body with
  | nil =>
    rw [List.nil_append, linesWithEnds]
    split
    · exact ⟨[c], linesWithEnds cs, rfl, .head _⟩
    · split
      · exact ⟨[c], [], rfl, .head _⟩
      · next line rest _ => exact ⟨c :: line, rest, rfl, .head _⟩
  | cons d body ih =>
    have hd : d ≠ '\n' := (List.ne_of_not_mem_cons h).symm
    obtain ⟨line, rest, hlines, hmem⟩ := ih (List.not_mem_of_not_mem_cons h)
    exact ⟨d :: line, rest, by rw [List.cons_append, linesWithEnds, if_neg hd, hlines],
      .tail _ hmem⟩

/-- A character is on the line that the line ends in front of it count. -/
theorem getElem?_linesWithEnds (before : List Char) (c : Char) (after : List Char) :
    ∃ line, (linesWithEnds (before ++ c :: after))[before.count '\n']? = some line ∧ c ∈ line := by
  have first {body : List Char} (h : '\n' ∉ body) :
      ∃ line, (linesWithEnds (body ++ c :: after))[body.count '\n']? = some line ∧ c ∈ line := by
    obtain ⟨line, rest, hlines, hmem⟩ := mem_head_linesWithEnds c after h
    exact ⟨line, by rw [hlines, List.count_eq_zero.2 h, List.getElem?_cons_zero], hmem⟩
  induction before using lineInduction with
  | nil => exact first List.not_mem_nil
  | last body _ hbody => exact first hbody
  | line body cs hbody ih =>
    have hcount : (body ++ '\n' :: cs).count '\n' = cs.count '\n' + 1 := by
      rw [List.count_append, List.count_eq_zero.2 hbody, List.count_cons_self, Nat.zero_add]
    rw [hcount, List.append_assoc, List.cons_append, linesWithEnds_append _ hbody,
      List.getElem?_cons_succ]
    exact ih

/-- A line without its end still has the characters that are no part of a line end. -/
theorem mem_stripLineEnd {c : Char} {line : List Char} (h : c ∈ line) (hnewline : c ≠ '\n')
    (hreturn : c ≠ '\r') : c ∈ stripLineEnd line := by
  have hreverse : c ∈ line.reverse := List.mem_reverse.2 h
  unfold stripLineEnd
  split
  · next rest heq => simpa [heq, hnewline, hreturn] using hreverse
  · next rest _ heq => simpa [heq, hnewline] using hreverse
  · exact h

/-- A line without its end holds no line end. -/
theorem not_newline_of_mem_lines {cs : List Char} : ∀ line ∈ lines cs, '\n' ∉ line := by
  induction cs using lineInduction with
  | nil => exact fun _ h => absurd h List.not_mem_nil
  | last body hne hbody =>
    intro line hline
    rw [lines, linesWithEnds_of_not_mem hne hbody, List.map_singleton, List.mem_singleton] at hline
    subst hline
    intro hmem
    refine hbody ?_
    unfold stripLineEnd at hmem
    split at hmem
    · next rest heq => exact List.mem_reverse.1 (heq ▸ .head _)
    · next rest _ heq => exact List.mem_reverse.1 (heq ▸ .head _)
    · exact hmem
  | line body cs hbody ih =>
    intro line hline
    rw [lines, linesWithEnds_append cs hbody, List.map_cons, List.mem_cons] at hline
    rcases hline with rfl | hline
    · intro hmem
      refine hbody ?_
      have hreverse : (body ++ ['\n']).reverse = '\n' :: body.reverse := by simp
      rw [stripLineEnd, hreverse] at hmem
      split at hmem
      · next rest heq =>
        have hbefore := List.cons.inj heq
        rw [← List.mem_reverse, hbefore.2]
        exact .tail _ (List.mem_reverse.1 hmem)
      · next rest _ heq =>
        have hbefore := List.cons.inj heq
        rw [← List.mem_reverse, hbefore.2]
        exact List.mem_reverse.1 hmem
      · next hnone => exact absurd rfl (hnone body.reverse)
    · exact ih line hline

/-- Trimming brings nothing in. -/
theorem mem_of_mem_trim {c : Char} {cs : List Char} (h : c ∈ trim cs) : c ∈ cs := by
  unfold trim trimEnd dropEnd at h
  have hstart := (List.dropWhile_sublist _).subset (List.mem_reverse.1 h)
  exact (List.dropWhile_sublist _).subset (List.mem_reverse.1 hstart)

end Recast.Text
