/-
  Task.lean --- work on something shared, in steps that other work may come between.

  A step changes what is shared, and what is done next depends on what the step found.  Done alone,
  a task is a function of what is shared (`run`); several tasks that share something are done with
  their steps in any order (`Interleave`), of which one after the other is one.
-/

set_option autoImplicit false

namespace Recast

/-- Work on a shared `S` that has a result in `α`. -/
inductive Task (S α : Type) where
  | done (result : α)
  /-- A change, and what is done next, which depends on what there was before the change. -/
  | step (change : S → S) (next : S → Task S α)

namespace Task

variable {S α β : Type}

/-- A single step. -/
def act (f : S → α × S) : Task S α := .step (fun s => (f s).2) fun s => .done (f s).1

/-- Work, and more work that its result is needed for. -/
def bind : Task S α → (α → Task S β) → Task S β
  | .done a, more => more a
  | .step change next, more => .step change fun s => (next s).bind more

instance : Monad (Task S) where
  pure := .done
  bind := bind

/-- The work done with nothing in between. -/
def run : Task S α → S → α × S
  | .done a, s => (a, s)
  | .step change next, s => (next s).run (change s)

@[simp] theorem run_pure (a : α) (s : S) : (pure a : Task S α).run s = (a, s) := rfl

@[simp] theorem run_act (f : S → α × S) (s : S) : (act f).run s = f s := rfl

@[simp] theorem run_bind (t : Task S α) (more : α → Task S β) (s : S) :
    (t >>= more).run s = (more (t.run s).1).run (t.run s).2 := by
  change (t.bind more).run s = _
  induction t generalizing s with
  | done a => rfl
  | step change next ih => exact ih s (change s)

/-- Tasks that share something are done, with their steps in some order. -/
inductive Interleave : List (Task S α) → S → List α → S → Prop
  | done (results : List α) (s : S) : Interleave (results.map .done) s results s
  | step {before after : List (Task S α)} {change : S → S} {next : S → Task S α} {s last : S}
      {results : List α} (rest : Interleave (before ++ next s :: after) (change s) results last) :
      Interleave (before ++ .step change next :: after) s results last

/-- The results of tasks that are done one after the other, and what is shared in the end. -/
def runAll : List (Task S α) → S → List α × S
  | [], s => ([], s)
  | t :: rest, s =>
    let (result, s) := t.run s
    let (results, s) := runAll rest s
    (result :: results, s)

/-- One of the tasks is done to its end. -/
theorem Interleave.run {before after : List (Task S α)} (t : Task S α) {s last : S} {all : List α}
    (h : Interleave (before ++ .done (t.run s).1 :: after) (t.run s).2 all last) :
    Interleave (before ++ t :: after) s all last := by
  induction t generalizing s with
  | done a => exact h
  | step change next ih => exact .step (ih s h)

/-- One after the other is an order. -/
theorem interleave_runAll (ts : List (Task S α)) (s : S) :
    Interleave ts s (runAll ts s).1 (runAll ts s).2 := by
  suffices hdone : ∀ results : List α,
      Interleave (results.map .done ++ ts) s (results ++ (runAll ts s).1) (runAll ts s).2 from
    hdone []
  induction ts generalizing s with
  | nil =>
    intro results
    rw [List.append_nil, runAll, List.append_nil]
    exact .done results s
  | cons t ts ih =>
    intro results
    have hrest := ih (t.run s).2 (results ++ [(t.run s).1])
    rw [List.map_append, List.append_assoc, List.append_assoc] at hrest
    exact Interleave.run t hrest

/-- Of two tasks the other one may be done first. -/
theorem interleave_swapped (t u : Task S α) (s : S) :
    Interleave [t, u] s [(t.run (u.run s).2).1, (u.run s).1] (t.run (u.run s).2).2 := by
  have hfirst : Interleave ([] ++ t :: [.done (u.run s).1]) (u.run s).2
      [(t.run (u.run s).2).1, (u.run s).1] (t.run (u.run s).2).2 := .run t (.done [_, _] _)
  have hboth : Interleave ([t] ++ u :: []) s
      [(t.run (u.run s).2).1, (u.run s).1] (t.run (u.run s).2).2 := .run u hfirst
  exact hboth

end Task

end Recast
