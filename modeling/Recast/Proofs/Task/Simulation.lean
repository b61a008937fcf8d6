/-
  Proofs/Task/Simulation.lean --- tasks that another task can keep up with.

  A task is `Simulated` by another one if the other one, after each of its steps, can take some steps
  of its own such that what the two work on is alike again, and has a like result when it is done.
  Steps that nobody notices (`Hidden`) need no answer, so the two may differ in them.  Tasks side by
  side are simulated by tasks side by side in every order of their steps (`Interleave.simulated`).
-/
import Recast.Proofs.Task

set_option autoImplicit false

namespace Recast.Task

variable {S S' α β γ δ : Type}

/-! ## Steps with nothing in between -/

/-- A task takes some of its steps, with nothing in between. -/
inductive Steps : Task S α → S → Task S α → S → Prop
  | refl (t : Task S α) (s : S) : Steps t s t s
  | step {change : S → S} {next : S → Task S α} {s last : S} {t : Task S α}
      (rest : Steps (next s) (change s) t last) : Steps (.step change next) s t last

namespace Steps

variable {t u : Task S α} {s last : S}

theorem bind (h : Steps t s u last) (more : α → Task S β) :
    Steps (t >>= more) s (u >>= more) last := by
  induction h with
  | refl => exact .refl _ _
  | step _ ih => exact .step ih

/-- A task can be done to its end. -/
theorem to_done (t : Task S α) (s : S) : Steps t s (.done (t.run s).1) (t.run s).2 := by
  induction t generalizing s with
  | done a => exact .refl _ _
  | step change next ih => exact .step (ih s (change s))

/-- The steps that are taken are steps of the work that is done with nothing in between. -/
theorem run_eq (h : Steps t s u last) : t.run s = u.run last := by
  induction h with
  | refl => rfl
  | step _ ih => exact ih

/-- A task side by side with others takes some of its steps. -/
theorem interleave {before after : List (Task S α)} {results : List α} {s' : S}
    (h : Steps t s u s') (hrest : Interleave (before ++ u :: after) s' results last) :
    Interleave (before ++ t :: after) s results last := by
  induction h with
  | refl => exact hrest
  | step _ ih => exact .step (ih hrest)

end Steps

/-! ## Simulation -/

/-- A task whose steps another one can keep up with: after each of them the other one can take some
steps such that what they work on is alike, and when it is done the other one is done with a like
result. -/
def Simulated (alike : S → S' → Prop) (post : α → β → Prop) : Task S α → Task S' β → Prop
  | .done a, t' => ∃ b, t' = .done b ∧ post a b
  | .step change next, t' => ∀ s s', alike s s' → ∃ u' last', Steps t' s' u' last' ∧
      alike (change s) last' ∧ (next s).Simulated alike post u'

/-- A task none of whose steps can be noticed. -/
def Hidden (alike : S → S' → Prop) (post : α → Prop) : Task S α → Prop
  | .done a => post a
  | .step change next => ∀ s s', alike s s' → alike (change s) s' ∧ (next s).Hidden alike post

section Alike

variable {alike : S → S' → Prop}

namespace Hidden

variable {post : α → Prop} {t : Task S α}

theorem pure {a : α} (h : post a) : (Pure.pure a : Task S α).Hidden alike post := h

theorem act {f : S → α × S} (h : ∀ s s', alike s s' → alike (f s).2 s' ∧ post (f s).1) :
    (Task.act f).Hidden alike post := h

theorem bind {more : α → Task S β} {last : β → Prop} (h : t.Hidden alike post)
    (hmore : ∀ a, post a → (more a).Hidden alike last) : (t >>= more).Hidden alike last := by
  change (t.bind more).Hidden alike last
  induction t with
  | done a => exact hmore a h
  | step change next ih => exact fun s s' hs => ⟨(h s s' hs).1, ih s (h s s' hs).2⟩

theorem run (h : t.Hidden alike post) {s : S} {s' : S'} (hs : alike s s') :
    alike (t.run s).2 s' ∧ post (t.run s).1 := by
  induction t generalizing s with
  | done a => exact ⟨hs, h⟩
  | step change next ih =>
    obtain ⟨hchange, hnext⟩ := h s s' hs
    exact ih s hnext hchange

end Hidden

namespace Simulated

variable {post : α → β → Prop} {t : Task S α} {t' : Task S' β}

theorem pure {a : α} {b : β} (h : post a b) :
    (Pure.pure a : Task S α).Simulated alike post (Pure.pure b) := ⟨b, rfl, h⟩

/-- Steps that answer each other. -/
theorem act {f : S → α × S} {g : S' → β × S'}
    (h : ∀ s s', alike s s' → alike (f s).2 (g s').2 ∧ post (f s).1 (g s').1) :
    (Task.act f).Simulated alike post (Task.act g) := by
  intro s s' hs
  obtain ⟨halike, hpost⟩ := h s s' hs
  exact ⟨_, _, .step (.refl _ _), halike, _, rfl, hpost⟩

theorem bind {more : α → Task S γ} {more' : β → Task S' δ} {last : γ → δ → Prop}
    (h : t.Simulated alike post t')
    (hmore : ∀ a b, post a b → (more a).Simulated alike last (more' b)) :
    (t >>= more).Simulated alike last (t' >>= more') := by
  change (t.bind more).Simulated alike last (t' >>= more')
  induction t generalizing t' with
  | done a =>
    obtain ⟨b, rfl, hab⟩ := h
    exact hmore a b hab
  | step change next ih =>
    intro s s' hs
    obtain ⟨u', last', hsteps, halike, hnext⟩ := h s s' hs
    exact ⟨_, last', hsteps.bind more', halike, ih s hnext⟩

/-- All the work of a task in answer to a single step. -/
theorem at_once {f : S → α × S} (h : ∀ s s', alike s s' →
    alike ((Task.act f).run s).2 (t'.run s').2 ∧ post ((Task.act f).run s).1 (t'.run s').1) :
    (Task.act f).Simulated alike post t' := by
  intro s s' hs
  obtain ⟨halike, hpost⟩ := h s s' hs
  exact ⟨_, _, .to_done t' s', halike, _, rfl, hpost⟩

/-- Nothing has to be done in answer to steps that cannot be noticed. -/
theorem of_hidden {left : α → Prop} {b : β} (h : t.Hidden alike left)
    (hpost : ∀ a, left a → post a b) : t.Simulated alike post (.done b) := by
  induction t with
  | done a => exact ⟨b, rfl, hpost a h⟩
  | step change next ih =>
    intro s s' hs
    obtain ⟨halike, hnext⟩ := h s s' hs
    exact ⟨_, s', .refl _ _, halike, ih s hnext⟩

/-- Work that cannot be noticed, and the same of another kind, as long as there is a step at all. -/
theorem hidden {left : α → Prop} {right : β → Prop} {change : S → S} {next : S → Task S α}
    (h : (Task.step change next).Hidden alike left)
    (h' : t'.Hidden (fun s' s => alike s s') right)
    (hpost : ∀ a b, left a → right b → post a b) :
    (Task.step change next).Simulated alike post t' := by
  intro s s' hs
  obtain ⟨halike, hnext⟩ := h s s' hs
  obtain ⟨hlater, hright⟩ := h'.run halike
  exact ⟨_, _, .to_done t' s', hlater, of_hidden hnext fun a ha => hpost a _ ha hright⟩

/-- The work done with nothing in between has a like result. -/
theorem run (h : t.Simulated alike post t') {s : S} {s' : S'} (hs : alike s s') :
    alike (t.run s).2 (t'.run s').2 ∧ post (t.run s).1 (t'.run s').1 := by
  induction t generalizing s s' t' with
  | done a =>
    obtain ⟨b, rfl, hab⟩ := h
    exact ⟨hs, hab⟩
  | step change next ih =>
    obtain ⟨u', last', hsteps, halike, hnext⟩ := h s s' hs
    rw [hsteps.run_eq]
    exact ih s hnext halike

end Simulated

/-! ## Several tasks -/

variable {post : α → β → Prop} {ts : List (Task S α)} {ts' : List (Task S' β)} {s last : S}
  {s' : S'} {results : List α}

theorem exists_done (h : List.Forall₂ (Simulated alike post) (results.map .done) ts') :
    ∃ results', ts' = results'.map .done ∧ List.Forall₂ post results results' := by
  rw [List.forall₂_map_left_iff] at h
  induction h with
  | nil => exact ⟨[], rfl, .nil⟩
  | cons ha _ ih =>
    obtain ⟨b, rfl, hab⟩ := ha
    obtain ⟨results', rfl, hresults⟩ := ih
    exact ⟨b :: results', rfl, .cons hab hresults⟩

/-- Whatever the order of the steps of some tasks is, there is one of the steps of the tasks that
simulate them with like results. -/
theorem Interleave.simulated (h : Interleave ts s results last) (hs : alike s s')
    (hts : List.Forall₂ (Simulated alike post) ts ts') :
    ∃ results' last', Interleave ts' s' results' last' ∧ List.Forall₂ post results results' ∧
      alike last last' := by
  induction h generalizing ts' s' with
  | done results s =>
    obtain ⟨results', rfl, hresults⟩ := exists_done hts
    exact ⟨results', s', .done results' s', hresults, hs⟩
  | @step before after change next s last results rest ih =>
    obtain ⟨t', before', after', rfl, hbefore, hstep, hafter⟩ := exists_of_forall₂_append hts.flip
    obtain ⟨u', mid', hsteps, halike, hnext⟩ := hstep s s' hs
    obtain ⟨results', last', hinterleave, hresults, hlast⟩ :=
      ih halike (List.rel_append hbefore.flip (.cons hnext hafter.flip))
    exact ⟨results', last', hsteps.interleave hinterleave, hresults, hlast⟩

/-- Tasks that are done one after the other have like results. -/
theorem runAll_simulated (hs : alike s s') (hts : List.Forall₂ (Simulated alike post) ts ts') :
    List.Forall₂ post (runAll ts s).1 (runAll ts' s').1 ∧ alike (runAll ts s).2 (runAll ts' s').2 := by
  induction hts generalizing s s' with
  | nil => exact ⟨.nil, hs⟩
  | cons ht _ ih =>
    obtain ⟨halike, hresult⟩ := ht.run hs
    obtain ⟨hresults, hlast⟩ := ih halike
    exact ⟨.cons hresult hresults, hlast⟩

end Alike

end Recast.Task
