/-
  Proofs/Go/Openers.lean --- which openers stay open, said without a stack.

  Delimiters here need not be nested: a closer counts only if it fits the innermost open delimiter, and
  is passed over otherwise.  An opener is closed when behind delimiters that leave it innermost
  (`LeavesOpen`) a closer of its kind follows (`IsClosed`); the others stay open (`unclosed`).  A stack
  of open delimiters holds just these (`openAfter_nil`).
-/
import Recast.Proofs.Go.Grammar

set_option autoImplicit false

namespace Recast.Go

open Lexer (isOpener openerOf)

/-- A delimiter with the line it is on. -/
abbrev Delimiter : Type := Char × Nat

/-- Delimiters behind which an opener of a kind is still the innermost open one, if it was so in front
of them: closers of other kinds, and openers that are closed again. -/
inductive LeavesOpen : Char → List Delimiter → Prop where
  | nil {opener : Char} : LeavesOpen opener []
  | misfit {opener : Char} {closer : Delimiter} {rest : List Delimiter} :
      isOpener closer.1 = false → openerOf closer.1 ≠ opener → LeavesOpen opener rest →
        LeavesOpen opener (closer :: rest)
  | pair {opener : Char} {inner closer : Delimiter} {between rest : List Delimiter} :
      isOpener inner.1 = true → LeavesOpen inner.1 between → isOpener closer.1 = false →
        openerOf closer.1 = inner.1 → LeavesOpen opener rest →
          LeavesOpen opener (inner :: (between ++ closer :: rest))

/-- Delimiters of which one closes an opener in front of them, being of its kind while the opener is
innermost. -/
def IsClosed (opener : Char) (behind : List Delimiter) : Prop :=
  ∃ between closer rest, behind = between ++ closer :: rest ∧ LeavesOpen opener between ∧
    isOpener closer.1 = false ∧ openerOf closer.1 = opener

namespace IsClosed

variable {opener : Char} {behind : List Delimiter}

theorem cons_misfit {closer : Delimiter} (hcloser : isOpener closer.1 = false)
    (hmisfit : openerOf closer.1 ≠ opener) (h : IsClosed opener behind) :
    IsClosed opener (closer :: behind) := by
  obtain ⟨between, last, rest, rfl, hbetween, hlast, hfits⟩ := h
  exact ⟨closer :: between, last, rest, rfl, .misfit hcloser hmisfit hbetween, hlast, hfits⟩

theorem cons_pair {inner closer : Delimiter} {between : List Delimiter}
    (hinner : isOpener inner.1 = true) (hbetween : LeavesOpen inner.1 between)
    (hcloser : isOpener closer.1 = false) (hfits : openerOf closer.1 = inner.1)
    (h : IsClosed opener behind) : IsClosed opener (inner :: (between ++ closer :: behind)) := by
  obtain ⟨before, last, rest, rfl, hbefore, hlast, hmatch⟩ := h
  refine ⟨inner :: (between ++ closer :: before), last, rest, by simp, ?_, hlast, hmatch⟩
  exact .pair hinner hbetween hcloser hfits hbefore

end IsClosed

/-! ## A stack of open delimiters -/

/-- The open delimiters after one more, innermost first.  A closer that does not fit changes nothing.
-/
def openOne (opened : List Delimiter) (d : Delimiter) : List Delimiter :=
  if isOpener d.1 then d :: opened
  else
    match opened with
    | top :: rest => if top.1 = openerOf d.1 then rest else opened
    | [] => []

/-- The open delimiters after more of them. -/
def openAfter (opened ds : List Delimiter) : List Delimiter := ds.foldl openOne opened

@[simp] theorem openAfter_nil_right (opened : List Delimiter) : openAfter opened [] = opened := rfl

@[simp] theorem openAfter_cons (opened : List Delimiter) (d : Delimiter) (ds : List Delimiter) :
    openAfter opened (d :: ds) = openAfter (openOne opened d) ds := rfl

theorem openAfter_append (opened ds es : List Delimiter) :
    openAfter opened (ds ++ es) = openAfter (openAfter opened ds) es := List.foldl_append

@[simp] theorem openOne_opener (opened : List Delimiter) {d : Delimiter} (h : isOpener d.1 = true) :
    openOne opened d = d :: opened := by
  simp [openOne, h]

theorem openOne_nil {d : Delimiter} (h : isOpener d.1 = false) : openOne [] d = [] := by
  simp [openOne, h]

theorem openOne_fits {top d : Delimiter} (opened : List Delimiter) (h : isOpener d.1 = false)
    (hfits : openerOf d.1 = top.1) : openOne (top :: opened) d = opened := by
  simp [openOne, h, hfits]

theorem openOne_misfit {top d : Delimiter} (opened : List Delimiter) (h : isOpener d.1 = false)
    (hmisfit : openerOf d.1 ≠ top.1) : openOne (top :: opened) d = top :: opened := by
  simp [openOne, h, hmisfit.symm]

theorem LeavesOpen.openAfter_eq {top : Delimiter} {ds : List Delimiter} (h : LeavesOpen top.1 ds)
    (opened : List Delimiter) : openAfter (top :: opened) ds = top :: opened := by
  generalize hkind : top.1 = opener at h
  induction h generalizing top opened with
  | nil => rfl
  | misfit hcloser hmisfit _ ih =>
    rw [openAfter_cons, openOne_misfit opened hcloser (hkind ▸ hmisfit)]
    exact ih opened hkind
  | pair hinner _ hcloser hfits _ ihbetween ihrest =>
    rw [openAfter_cons, openOne_opener _ hinner, openAfter_append, ihbetween _ rfl, openAfter_cons,
      openOne_fits _ hcloser hfits]
    exact ihrest opened hkind

/-- A closer that closes the innermost open delimiter leaves the others as they were. -/
theorem openAfter_closed {top closer : Delimiter} {between : List Delimiter}
    (hbetween : LeavesOpen top.1 between) (hcloser : isOpener closer.1 = false)
    (hfits : openerOf closer.1 = top.1) (opened rest : List Delimiter) :
    openAfter (top :: opened) (between ++ closer :: rest) = openAfter opened rest := by
  rw [openAfter_append, hbetween.openAfter_eq, openAfter_cons, openOne_fits _ hcloser hfits]

/-- Below an opener that is not closed everything stays as it was, and above it things go on as if
nothing were below. -/
theorem openAfter_of_not_isClosed {top : Delimiter} {ds : List Delimiter} (h : ¬IsClosed top.1 ds)
    (opened : List Delimiter) : openAfter (top :: opened) ds = openAfter [] ds ++ top :: opened := by
  induction hn : ds.length using Nat.strongRecOn generalizing top ds opened with
  | ind n ih =>
    cases ds with
    | nil => rfl
    | cons d ds =>
      have hshorter : ds.length < n := by
        rw [← hn, List.length_cons]
        omega
      cases hopener : isOpener d.1 with
      | false =>
        have hmisfit : openerOf d.1 ≠ top.1 := fun hfits => h ⟨[], d, ds, rfl, .nil, hopener, hfits⟩
        have hrest : ¬IsClosed top.1 ds := fun hclosed => h (hclosed.cons_misfit hopener hmisfit)
        rw [openAfter_cons, openAfter_cons, openOne_misfit _ hopener hmisfit, openOne_nil hopener]
        exact ih ds.length hshorter hrest opened rfl
      | true =>
        rw [openAfter_cons, openAfter_cons, openOne_opener _ hopener, openOne_opener _ hopener]
        by_cases hclosed : IsClosed d.1 ds
        · -- The inner opener is closed, so the argument goes on behind its closer.
          obtain ⟨between, closer, rest, rfl, hbetween, hcloser, hfits⟩ := hclosed
          have hrest : ¬IsClosed top.1 rest := fun hlater =>
            h (hlater.cons_pair hopener hbetween hcloser hfits)
          rw [openAfter_closed hbetween hcloser hfits, openAfter_closed hbetween hcloser hfits]
          refine ih rest.length ?_ hrest opened rfl
          simp only [List.length_append, List.length_cons] at hshorter
          omega
        · rw [ih ds.length hshorter hclosed (top :: opened) rfl, ih ds.length hshorter hclosed [] rfl,
            List.append_assoc]
          rfl

/-- With nothing else open, an opener that is closed leaves nothing. -/
theorem openAfter_of_isClosed {top : Delimiter} {ds : List Delimiter} (h : IsClosed top.1 ds) :
    openAfter [top] ds = openAfter [] ds := by
  obtain ⟨between, closer, rest, rfl, hbetween, hcloser, hfits⟩ := h
  have hnothing : openAfter [] between = [] := by
    clear hfits
    generalize top.1 = opener at hbetween
    induction hbetween with
    | nil => rfl
    | misfit hmisfit _ _ ih => rwa [openAfter_cons, openOne_nil hmisfit]
    | pair hinner hbetween hlast hmatch _ _ ih =>
      rwa [openAfter_cons, openOne_opener _ hinner, openAfter_closed hbetween hlast hmatch]
  rw [openAfter_closed hbetween hcloser hfits, openAfter_append, hnothing, openAfter_cons,
    openOne_nil hcloser]

/-- Whether an opener is closed shows in what it leaves behind. -/
theorem isClosed_iff {opener : Char} {ds : List Delimiter} :
    IsClosed opener ds ↔ openAfter [(opener, 0)] ds = openAfter [] ds := by
  constructor
  · intro h
    have hclosed : IsClosed (opener, 0).1 ds := h
    exact openAfter_of_isClosed hclosed
  · intro heq
    by_cases hclosed : IsClosed opener ds
    · exact hclosed
    · have hopen : ¬IsClosed (opener, 0).1 ds := hclosed
      rw [openAfter_of_not_isClosed hopen] at heq
      simpa using congrArg List.length heq

instance (opener : Char) (ds : List Delimiter) : Decidable (IsClosed opener ds) :=
  decidable_of_iff _ isClosed_iff.symm

/-! ## What stays open -/

/-- The openers among delimiters that none of those behind them closes, in their order. -/
def unclosed : List Delimiter → List Delimiter
  | [] => []
  | d :: ds => if isOpener d.1 = true ∧ ¬IsClosed d.1 ds then d :: unclosed ds else unclosed ds

/-- A stack holds the openers that are not closed, the last one first. -/
theorem openAfter_nil (ds : List Delimiter) : openAfter [] ds = (unclosed ds).reverse := by
  induction ds with
  | nil => rfl
  | cons d ds ih =>
    rw [openAfter_cons, unclosed]
    cases hopener : isOpener d.1 with
    | false => simpa [openOne_nil hopener] using ih
    | true =>
      rw [openOne_opener _ hopener]
      by_cases hclosed : IsClosed d.1 ds
      · simpa [hclosed, openAfter_of_isClosed hclosed] using ih
      · simp [hclosed, openAfter_of_not_isClosed hclosed, ih]

/-- A closer of another kind closes nothing. -/
example : unclosed [('{', 1), ('(', 2), (']', 2), ('[', 3), (']', 3)] = [('{', 1), ('(', 2)] := by
  decide

theorem unclosed_sublist (ds : List Delimiter) : (unclosed ds).Sublist ds := by
  induction ds with
  | nil => exact .slnil
  | cons d ds ih =>
    rw [unclosed]
    split
    · exact ih.cons_cons d
    · exact ih.cons d

end Recast.Go
