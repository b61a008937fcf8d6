/-
  Proofs/Task/Tally.lean --- counting what tasks that share something do.

  Much of the work of a task may leave a part of what is shared alone (`Quiet`).  When the part is a
  count that steps add to, what a task adds can be told from its result (`Adds`); so after several
  tasks, whatever the order of their steps, the count has grown by what their results tell together
  (`Interleave.total`).
-/
import Mathlib.Algebra.BigOperators.Group.List.Basic
import Recast.Proofs.Task

set_option autoImplicit false

namespace Recast.Task

variable {S H α β γ : Type} (view : S → H)

/-! ## Work that leaves a part alone -/

/-- A task that leaves a part of what is shared alone, whatever there is, and has a result as it
should be. -/
def Quiet (post : α → Prop) : Task S α → Prop
  | .done a => post a
  | .step change next => ∀ s, view (change s) = view s ∧ (next s).Quiet post

namespace Quiet

variable {view} {post : α → Prop} {t : Task S α}

theorem pure {a : α} (h : post a) : (Pure.pure a : Task S α).Quiet view post := h

theorem act {f : S → α × S} (h : ∀ s, view (f s).2 = view s ∧ post (f s).1) :
    (Task.act f).Quiet view post := h

theorem mono {more : α → Prop} (h : t.Quiet view post) (hmore : ∀ a, post a → more a) :
    t.Quiet view more := by
  induction t with
  | done a => exact hmore a h
  | step change next ih => exact fun s => ⟨(h s).1, ih s (h s).2⟩

theorem bind {more : α → Task S β} {last : β → Prop} (h : t.Quiet view post)
    (hmore : ∀ a, post a → (more a).Quiet view last) : (t >>= more).Quiet view last := by
  change (t.bind more).Quiet view last
  induction t with
  | done a => exact hmore a h
  | step change next ih => exact fun s => ⟨(h s).1, ih s (h s).2⟩

end Quiet

/-- Tasks side by side leave alone what each of them leaves alone. -/
theorem Interleave.quiet {view : S → H} {ts : List (Task S α)} {s last : S}
    {results : List α} (h : Interleave ts s results last)
    (hts : ∀ t ∈ ts, t.Quiet view fun _ => True) :
    view last = view s := by
  induction h with
  | done results s => rfl
  | @step before after change next s last results rest ih =>
    obtain ⟨hsame, hnext⟩ := hts (.step change next) (List.mem_append_right _ (.head _)) s
    refine (ih fun t ht => ?_).trans hsame
    rcases List.mem_append.1 ht with hbefore | hafter
    · exact hts t (List.mem_append_left _ hbefore)
    · rcases List.mem_cons.1 hafter with rfl | hafter
      · exact hnext
      · exact hts t (List.mem_append_right _ (.tail _ hafter))

/-! ## Work that counts -/

section Adds

variable {M : Type} [AddCommMonoid M] (tally : S → M)

/-- A task whose steps add to a count; what they add in all, with what was added before, is as it
should be for the result. -/
def Adds (post : α → M → Prop) : M → Task S α → Prop
  | added, .done a => post a added
  | added, .step change next => ∀ s, ∃ n, tally (change s) = tally s + n ∧
      (next s).Adds post (added + n)

namespace Adds

variable {tally} {post : α → M → Prop} {added : M} {t : Task S α}

theorem pure {a : α} (h : post a added) : (Pure.pure a : Task S α).Adds tally post added := h

theorem act {f : S → α × S} (h : ∀ s, ∃ n, tally (f s).2 = tally s + n ∧ post (f s).1 (added + n)) :
    (Task.act f).Adds tally post added := h

theorem mono {more : α → M → Prop} (h : t.Adds tally post added)
    (hmore : ∀ a n, post a n → more a n) : t.Adds tally more added := by
  induction t generalizing added with
  | done a => exact hmore a added h
  | step change next ih =>
    intro s
    obtain ⟨n, hcount, hnext⟩ := h s
    exact ⟨n, hcount, ih s hnext⟩

theorem bind {more : α → Task S β} {last : β → M → Prop} (h : t.Adds tally post added)
    (hmore : ∀ a n, post a n → (more a).Adds tally last n) :
    (t >>= more).Adds tally last added := by
  change (t.bind more).Adds tally last added
  induction t generalizing added with
  | done a => exact hmore a added h
  | step change next ih =>
    intro s
    obtain ⟨n, hcount, hnext⟩ := h s
    exact ⟨n, hcount, ih s hnext⟩

/-- Work that leaves the count alone adds nothing. -/
theorem of_quiet {quiet : α → Prop} (h : t.Quiet tally quiet) (hpost : ∀ a, quiet a → post a added) :
    t.Adds tally post added := by
  induction t with
  | done a => exact hpost a h
  | step change next ih =>
    intro s
    obtain ⟨hsame, hnext⟩ := h s
    refine ⟨0, by rw [hsame, add_zero], ?_⟩
    rw [add_zero]
    exact ih s hnext

end Adds

end Adds

/-- Tasks side by side add what their results tell. -/
theorem Interleave.total {M : Type} [AddCancelCommMonoid M] {tally : S → M} {post : α → M → Prop}
    {ts : List (Task S α)} {s last : S} {results : List α} (h : Interleave ts s results last)
    {added : List M} (hts : List.Forall₂ (fun n t => t.Adds tally post n) added ts) :
    ∃ all, List.Forall₂ post results all ∧ tally last + added.sum = tally s + all.sum := by
  induction h generalizing added with
  | done results s =>
    rw [List.forall₂_map_right_iff] at hts
    exact ⟨added, hts.flip, rfl⟩
  | @step before after change next s last results rest ih =>
    obtain ⟨n, addedb, addeda, rfl, hbefore, hstep, hafter⟩ := exists_of_forall₂_append hts
    obtain ⟨more, hcount, hnext⟩ := hstep s
    obtain ⟨all, hall, hsum⟩ := ih (List.rel_append hbefore (.cons hnext hafter))
    refine ⟨all, hall, ?_⟩
    rw [hcount, List.sum_append, List.sum_cons] at hsum
    rw [List.sum_append, List.sum_cons]
    refine add_right_cancel (b := more) ?_
    calc tally last + (addedb.sum + (n + addeda.sum)) + more
        = tally last + (addedb.sum + (n + more + addeda.sum)) := by ac_rfl
      _ = tally s + more + all.sum := hsum
      _ = tally s + all.sum + more := by ac_rfl

end Recast.Task
