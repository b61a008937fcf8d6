/-
  Proofs/Task.lean --- what tasks that share something can rely on and what they guarantee.

  A task is `Within` bounds if each of its steps does at most what it guarantees, and its result is
  as it should be, as long as what comes between its steps does at most what it relies on.  Tasks
  that guarantee each other what they rely on do so in every order of their steps
  (`Interleave.within`).
-/
import Mathlib.Data.List.Forall2
import Recast.Task

set_option autoImplicit false

namespace Recast.Task

variable {S α β : Type} {rely guar : S → S → Prop}

/-- Whatever others do of the things relied on, each step of a task only does what is guaranteed,
and the result is as it should be. -/
def Within (rely guar : S → S → Prop) (post : α → S → Prop) : Task S α → S → Prop
  | .done a, s => ∀ s', rely s s' → post a s'
  | .step change next, s => ∀ s', rely s s' →
      guar s' (change s') ∧ (next s').Within rely guar post (change s')

/-- Bounds that may be relied on at any time, and on and on. -/
structure Steady (rely : S → S → Prop) : Prop where
  refl : ∀ s, rely s s
  trans : ∀ {s t u}, rely s t → rely t u → rely s u

namespace Within

variable {post : α → S → Prop} {t : Task S α} {s s' : S}

theorem of_rely (hrely : Steady rely) (h : t.Within rely guar post s) (hs : rely s s') :
    t.Within rely guar post s' := by
  cases t with
  | done a => exact fun u hu => h u (hrely.trans hs hu)
  | step change next => exact fun u hu => h u (hrely.trans hs hu)

theorem mono {more : α → S → Prop} (h : t.Within rely guar post s)
    (hmore : ∀ a s', post a s' → more a s') : t.Within rely guar more s := by
  induction t generalizing s with
  | done a => exact fun s' hs => hmore a s' (h s' hs)
  | step change next ih => exact fun s' hs => ⟨(h s' hs).1, ih s' (h s' hs).2⟩

theorem pure {a : α} (h : ∀ s', rely s s' → post a s') :
    (Pure.pure a : Task S α).Within rely guar post s := h

theorem act {f : S → α × S} (h : ∀ s', rely s s' →
    guar s' (f s').2 ∧ ∀ u, rely (f s').2 u → post (f s').1 u) :
    (Task.act f).Within rely guar post s := h

theorem bind (hrely : Steady rely) {more : α → Task S β} {last : β → S → Prop}
    (h : t.Within rely guar post s)
    (hmore : ∀ a s', post a s' → (more a).Within rely guar last s') :
    (t >>= more).Within rely guar last s := by
  change (t.bind more).Within rely guar last s
  induction t generalizing s with
  | done a => exact hmore a s (h s (hrely.refl s))
  | step change next ih =>
    intro s' hs
    obtain ⟨hguar, hnext⟩ := h s' hs
    exact ⟨hguar, ih s' hnext⟩

/-- A task that is done with nothing in between has the result that it should have. -/
theorem run (hrely : Steady rely) (h : t.Within rely guar post s) :
    post (t.run s).1 (t.run s).2 := by
  induction t generalizing s with
  | done a => exact h s (hrely.refl s)
  | step change next ih => exact ih s (h s (hrely.refl s)).2

/-- Others may do less than was relied on, and less may be told of the steps. -/
theorem weaken {rely' guar' : S → S → Prop} (h : t.Within rely guar post s)
    (hrely : ∀ s s', rely' s s' → rely s s') (hguar : ∀ s s', guar s s' → guar' s s') :
    t.Within rely' guar' post s := by
  induction t generalizing s with
  | done a => exact fun s' hs => h s' (hrely s s' hs)
  | step change next ih =>
    intro s' hs
    obtain ⟨hstep, hnext⟩ := h s' (hrely s s' hs)
    exact ⟨hguar _ _ hstep, ih s' hnext⟩

/-- A task that does no more than others do leaves what they leave. -/
theorem left (hrely : Steady rely) (h : t.Within rely guar post s)
    (hguar : ∀ s s', guar s s' → rely s s') :
    t.Within rely guar (fun a s' => post a s' ∧ rely s s') s := by
  suffices hall : ∀ first, rely first s →
      t.Within rely guar (fun a s' => post a s' ∧ rely first s') s from hall s (hrely.refl s)
  induction t generalizing s with
  | done a => exact fun first hfirst s' hs => ⟨h s' hs, hrely.trans hfirst hs⟩
  | step change next ih =>
    intro first hfirst s' hs
    obtain ⟨hstep, hnext⟩ := h s' hs
    exact ⟨hstep, ih s' hnext first (hrely.trans (hrely.trans hfirst hs) (hguar _ _ hstep))⟩

/-- Two things that are known of a result are known together. -/
theorem and {guar' : S → S → Prop} {post' : α → S → Prop} (h : t.Within rely guar post s)
    (h' : t.Within rely guar' post' s) :
    t.Within rely guar (fun a s' => post a s' ∧ post' a s') s := by
  induction t generalizing s with
  | done a => exact fun s' hs => ⟨h s' hs, h' s' hs⟩
  | step change next ih => exact fun s' hs => ⟨(h s' hs).1, ih s' (h s' hs).2 (h' s' hs).2⟩

end Within

/-! ## Tasks side by side -/

/-- Every task has a result. -/
theorem Interleave.length_eq {ts : List (Task S α)} {s last : S} {results : List α}
    (h : Interleave ts s results last) : results.length = ts.length := by
  induction h with
  | done results s => exact (List.length_map _).symm
  | step rest ih =>
    rw [ih, List.length_append, List.length_append, List.length_cons, List.length_cons]

/-- Behind the first step of a task the others may do all that they do, before it goes on. -/
theorem interleave_between (t u : Task S α) (change : S → S) (next : S → Task S α) (s : S) :
    let second := u.run (change s)
    let first := t.run second.2
    let middle := (next s).run first.2
    Interleave [t, .step change next, u] s [first.1, middle.1, second.1] middle.2 := by
  intro second first middle
  have hmiddle : Interleave ([.done first.1] ++ next s :: [.done second.1]) first.2
      [first.1, middle.1, second.1] middle.2 := .run (next s) (.done [_, _, _] _)
  have hfirst : Interleave ([] ++ t :: [next s, .done second.1]) second.2
      [first.1, middle.1, second.1] middle.2 := .run t hmiddle
  have hsecond : Interleave ([t, next s] ++ u :: []) (change s)
      [first.1, middle.1, second.1] middle.2 := .run u hfirst
  exact @Interleave.step S α [t] [u] change next s middle.2 _ hsecond

variable {X : Type} {relies guars : X → S → S → Prop} {post : X → α → S → Prop}

/-- What one guarantees the other one relies on, both ways. -/
def Agree (relies guars : X → S → S → Prop) (x y : X) : Prop :=
  ∀ s s', (guars x s s' → relies y s s') ∧ (guars y s s' → relies x s s')

/-- Tasks that are not concerned stay within their bounds. -/
theorem forall₂_of_agree (hsteady : ∀ x, Steady (relies x)) {xs : List X} {ts : List (Task S α)}
    {s s' : S}
    (h : List.Forall₂ (fun x t => t.Within (relies x) (guars x) (post x) s) xs ts)
    (hrely : ∀ x ∈ xs, relies x s s') :
    List.Forall₂ (fun x t => t.Within (relies x) (guars x) (post x) s') xs ts := by
  have hboth := (List.forall₂_and_left xs ts).2 ⟨hrely, h⟩
  exact hboth.imp fun x t hx => hx.2.of_rely (hsteady x) hx.1

/-- What belongs to a task between others. -/
theorem exists_of_forall₂_append {R : X → β → Prop} {xs : List X} {before after : List β} {b : β}
    (h : List.Forall₂ R xs (before ++ b :: after)) :
    ∃ x xsb xsa, xs = xsb ++ x :: xsa ∧ List.Forall₂ R xsb before ∧ R x b ∧
      List.Forall₂ R xsa after := by
  have hbefore := List.forall₂_take_append _ _ _ h
  have hafter := List.forall₂_drop_append _ _ _ h
  have hxs := List.take_append_drop before.length xs
  generalize xs.drop before.length = rest at hafter hxs
  cases hafter with
  | cons hx hafter => exact ⟨_, _, _, hxs.symm, hbefore, hx, hafter⟩

/-- What belongs to one of the tasks. -/
theorem exists_of_mem_forall₂ {R : X → β → Prop} {xs : List X} {bs : List β}
    (h : List.Forall₂ R xs bs) {b : β} (hb : b ∈ bs) : ∃ x ∈ xs, R x b := by
  obtain ⟨before, after, rfl⟩ := List.append_of_mem hb
  obtain ⟨x, xsb, xsa, rfl, -, hx, -⟩ := exists_of_forall₂_append h
  exact ⟨x, List.mem_append_right _ (.head _), hx⟩

/-- Tasks that agree have the results that they should have, in every order of their steps, and do
together nothing but what each of them guarantees. -/
theorem Interleave.within (hsteady : ∀ x, Steady (relies x)) {xs : List X}
    (hagree : xs.Pairwise (Agree relies guars)) {ts : List (Task S α)} {s last : S}
    {results : List α} (h : Interleave ts s results last)
    (hts : List.Forall₂ (fun x t => t.Within (relies x) (guars x) (post x) s) xs ts) :
    List.Forall₂ (fun x a => post x a last) xs results ∧ ∀ all : S → S → Prop, Steady all →
      (∀ x ∈ xs, ∀ s s', guars x s s' → all s s') → all s last := by
  induction h with
  | done results s =>
    rw [List.forall₂_map_right_iff] at hts
    exact ⟨hts.imp fun x a ha => ha s ((hsteady x).refl s), fun all hall _ => hall.refl s⟩
  | @step before after change next s last results rest ih =>
    obtain ⟨x, xsb, xsa, rfl, hbefore, hx, hafter⟩ := exists_of_forall₂_append hts
    obtain ⟨-, hstep, hagreed⟩ := List.pairwise_append.1 hagree
    obtain ⟨hguar, hnext⟩ := hx s ((hsteady x).refl s)
    have hfirst := forall₂_of_agree hsteady hbefore fun y hy =>
      (hagreed y hy x (.head _) s (change s)).2 hguar
    have hlast := forall₂_of_agree hsteady hafter fun y hy =>
      ((List.pairwise_cons.1 hstep).1 y hy s (change s)).1 hguar
    obtain ⟨hresults, hdone⟩ := ih (List.rel_append hfirst (.cons hnext hlast))
    refine ⟨hresults, fun all hall hguars => ?_⟩
    exact hall.trans (hguars x (List.mem_append_right _ (.head _)) _ _ hguar) (hdone all hall hguars)

theorem Interleave.results (hsteady : ∀ x, Steady (relies x)) {xs : List X}
    (hagree : xs.Pairwise (Agree relies guars)) {ts : List (Task S α)} {s last : S}
    {results : List α} (h : Interleave ts s results last)
    (hts : List.Forall₂ (fun x t => t.Within (relies x) (guars x) (post x) s) xs ts) :
    List.Forall₂ (fun x a => post x a last) xs results :=
  (h.within hsteady hagree hts).1

end Recast.Task
