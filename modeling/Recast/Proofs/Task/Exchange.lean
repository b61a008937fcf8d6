/-
  Proofs/Task/Exchange.lean --- tasks whose steps can be exchanged.

  Of all that tasks share, only a part may count for what they do.  What a step does with that part is
  an act.  Two acts are `Exchanged` if it makes no difference which one comes first; a `Party` says
  which acts a task consists of and which facts it may rely on.  If the acts of different tasks can be
  exchanged, then every order of their steps has the results of doing one task after the other, and
  leaves the same of what counts (`Interleave.runAll_eq`, `Interleave.same`).
-/
import Recast.Proofs.Task

set_option autoImplicit false

namespace Recast.Task

variable {S C α β γ δ : Type}

/-! ## Acts -/

/-- Two acts that can be done in either order: each finds what it would have found without the other
one, and in the end they leave the same. -/
structure Exchanged (f : C → β × C) (g : C → γ × C) (c : C) : Prop where
  left : (f (g c).2).1 = (f c).1
  right : (g (f c).2).1 = (g c).1
  both : (f (g c).2).2 = (g (f c).2).2

namespace Exchanged

variable {f : C → β × C} {g : C → γ × C} {c : C}

theorem symm (h : Exchanged f g c) : Exchanged g f c := ⟨h.right, h.left, h.both.symm⟩

end Exchanged

/-- What the steps of a task may do, and what the task may know between them. -/
structure Party (C : Type) where
  acts : ∀ {β : Type}, (C → β × C) → Prop
  facts : (C → Prop) → Prop

/-- Parties whose acts can be exchanged and leave each other's facts alone. -/
structure Compatible (p q : Party C) : Prop where
  exchanged : ∀ {known known' : C → Prop}, p.facts known → q.facts known' →
    ∀ {β γ : Type} {f : C → β × C} {g : C → γ × C}, p.acts f → q.acts g →
      ∀ {c}, known c → known' c → Exchanged f g c
  left : ∀ {known known' : C → Prop}, p.facts known → q.facts known' →
    ∀ {γ : Type} {g : C → γ × C}, q.acts g → ∀ {c}, known c → known' c → known (g c).2
  right : ∀ {known known' : C → Prop}, p.facts known → q.facts known' →
    ∀ {β : Type} {f : C → β × C}, p.acts f → ∀ {c}, known c → known' c → known' (f c).2

theorem Compatible.symm {p q : Party C} (h : Compatible p q) : Compatible q p where
  exchanged hknown hknown' _ _ _ _ hf hg _ hc hc' := (h.exchanged hknown' hknown hg hf hc' hc).symm
  left hknown hknown' _ _ hg _ hc hc' := h.right hknown' hknown hg hc' hc
  right hknown hknown' _ _ hf _ hc hc' := h.left hknown' hknown hf hc' hc

/-- A party that does nothing, but wants a fact to last. -/
def spectator (fact : C → Prop) : Party C := ⟨fun _ => False, (· = fact)⟩

theorem compatible_spectator {p : Party C} {fact : C → Prop}
    (h : ∀ {known : C → Prop}, p.facts known → ∀ {β : Type} {f : C → β × C}, p.acts f →
      ∀ {c}, known c → fact c → fact (f c).2) : Compatible p (spectator fact) where
  exchanged _ _ _ _ _ _ _ hg := hg.elim
  left _ _ _ _ hg := hg.elim
  right := by
    rintro known _ hknown rfl β f hf c hc hfact
    exact h hknown hf hc hfact

/-! ### Acts that are decided by what is seen -/

/-- What a worker sees of what counts, and the effects that it can have there. -/
structure Hand (C : Type) where
  Sight : Type
  Effect : Type
  see : C → Sight
  perform : Effect → C → C

namespace Hand

variable {sound : C → Prop}

/-- An act that is decided by what is seen. -/
def act (h : Hand C) (answer : h.Sight → β) (effect : h.Sight → h.Effect) (c : C) : β × C :=
  (answer (h.see c), h.perform (effect (h.see c)) c)

/-- The party whose acts are decided by what is seen, and that relies on what is sound. -/
def party (h : Hand C) (sound : C → Prop) : Party C where
  acts f := ∃ answer effect, f = h.act answer effect
  facts := (· = sound)

/-- Hands that neither see nor undo what the other one does. -/
structure Apart (sound : C → Prop) (h h' : Hand C) : Prop where
  left : ∀ c, sound c → ∀ e, h.see (h'.perform e c) = h.see c
  right : ∀ c, sound c → ∀ e, h'.see (h.perform e c) = h'.see c
  both : ∀ c, sound c → ∀ e e', h.perform e (h'.perform e' c) = h'.perform e' (h.perform e c)

theorem Apart.compatible {h h' : Hand C} (hapart : h.Apart sound h')
    (hsound : ∀ e c, sound c → sound (h.perform e c))
    (hsound' : ∀ e c, sound c → sound (h'.perform e c)) :
    Compatible (h.party sound) (h'.party sound) where
  exchanged := by
    rintro _ _ rfl rfl β γ f g ⟨answer, effect, rfl⟩ ⟨answer', effect', rfl⟩ c hc -
    have hleft := hapart.left c hc (effect' (h'.see c))
    have hright := hapart.right c hc (effect (h.see c))
    refine ⟨congrArg answer hleft, congrArg answer' hright, ?_⟩
    unfold act
    dsimp only
    rw [hleft, hright]
    exact hapart.both c hc _ _
  left := by
    rintro _ _ rfl rfl γ g ⟨answer, effect, rfl⟩ c hc -
    exact hsound' _ _ hc
  right := by
    rintro _ _ rfl rfl β f ⟨answer, effect, rfl⟩ c hc -
    exact hsound _ _ hc

end Hand

/-! ## Tasks that do the same -/

/-- Two tasks that do the acts of a party in the same order, and go on doing the same as long as they
find the same; in the end their results belong together, and something is known. -/
def Tandem (view : S → C) (p : Party C) (post : α → β → Prop) (last : α → C → Prop) :
    (C → Prop) → Task S α → Task S β → Prop
  | known, .done a, t' => ∃ b, t' = .done b ∧ post a b ∧ ∀ c, known c → last a c
  | known, .step change next, t' => ∃ change' next', t' = .step change' next' ∧
      ∃ (γ : Type) (f : C → γ × C) (learnt : γ → C → Prop),
        (p.acts f ∧ ∀ found, p.facts (learnt found)) ∧
          (∀ s, known (view s) → view (change s) = (f (view s)).2 ∧
            view (change' s) = (f (view s)).2 ∧ learnt (f (view s)).1 (f (view s)).2) ∧
          ∀ s s', known (view s) → known (view s') → (f (view s')).1 = (f (view s)).1 →
            Tandem view p post last (learnt (f (view s)).1) (next s) (next' s')

section Tandem

variable {view : S → C} {p q : Party C} {known known' : C → Prop} {s s' : S}

namespace Tandem

variable {post : α → β → Prop} {last : α → C → Prop} {t : Task S α} {t' : Task S β}

theorem pure {a : α} {b : β} (h : post a b) (hlast : ∀ c, known c → last a c) :
    Tandem view p post last known (Pure.pure a) (Pure.pure b) := ⟨b, rfl, h, hlast⟩

/-- Less may be told of what is known in the end. -/
theorem mono {last' : α → C → Prop} (h : Tandem view p post last known t t')
    (hlast : ∀ a c, last a c → last' a c) : Tandem view p post last' known t t' := by
  induction t generalizing known t' with
  | done a =>
    obtain ⟨b, rfl, hab, hend⟩ := h
    exact ⟨b, rfl, hab, fun c hc => hlast a c (hend c hc)⟩
  | step change next ih =>
    obtain ⟨change', next', rfl, γ, f, learnt, hf, hview, hnext⟩ := h
    exact ⟨change', next', rfl, γ, f, learnt, hf, hview, fun s s' hs hs' hfound =>
      ih s (hnext s s' hs hs' hfound)⟩

/-- More may be known. -/
theorem weaken (h : Tandem view p post last known t t') (hmore : ∀ c, known' c → known c) :
    Tandem view p post last known' t t' := by
  cases t with
  | done a =>
    obtain ⟨b, rfl, hab, hlast⟩ := h
    exact ⟨b, rfl, hab, fun c hc => hlast c (hmore c hc)⟩
  | step change next =>
    obtain ⟨change', next', rfl, γ, f, learnt, hf, hview, hnext⟩ := h
    exact ⟨change', next', rfl, γ, f, learnt, hf, fun s hs => hview s (hmore _ hs),
      fun s s' hs hs' => hnext s s' (hmore _ hs) (hmore _ hs')⟩

/-- A single step that does an act. -/
theorem act {f : C → γ × C} (hf : p.acts f) {learnt : γ → C → Prop}
    (hfacts : ∀ found, p.facts (learnt found)) {g : S → α × S} {g' : S → β × S}
    (hview : ∀ s, known (view s) → view (g s).2 = (f (view s)).2 ∧
      view (g' s).2 = (f (view s)).2 ∧ learnt (f (view s)).1 (f (view s)).2)
    (hpost : ∀ s s', known (view s) → known (view s') → (f (view s')).1 = (f (view s)).1 →
      post (g s).1 (g' s').1 ∧ ∀ c, learnt (f (view s)).1 c → last (g s).1 c) :
    Tandem view p post last known (Task.act g) (Task.act g') :=
  ⟨_, _, rfl, γ, f, learnt, ⟨hf, hfacts⟩, hview, fun s s' hs hs' hfound =>
    ⟨_, rfl, hpost s s' hs hs' hfound⟩⟩

/-- A single step whose act is decided by what is seen. -/
theorem act_of_hand {h : Hand C} {sound : C → Prop} (answer : h.Sight → γ)
    (effect : h.Sight → h.Effect) {g : S → α × S} {g' : S → β × S}
    (hview : ∀ s, sound (view s) → view (g s).2 = h.perform (effect (h.see (view s))) (view s) ∧
      view (g' s).2 = h.perform (effect (h.see (view s))) (view s))
    (hsound : ∀ e c, sound c → sound (h.perform e c))
    (hpost : ∀ s s', sound (view s) → sound (view s') →
      answer (h.see (view s')) = answer (h.see (view s)) → post (g s).1 (g' s').1) :
    Tandem view (h.party sound) post (fun _ => sound) sound (Task.act g) (Task.act g') := by
  have hact : (h.party sound).acts (h.act answer effect) := ⟨answer, effect, rfl⟩
  have hfacts : ∀ _ : γ, (h.party sound).facts sound := fun _ => rfl
  refine act hact hfacts (fun s hs => ?_) fun s s' hs hs' hfound =>
    ⟨hpost s s' hs hs' hfound, fun _ hc => hc⟩
  obtain ⟨hleft, hright⟩ := hview s hs
  exact ⟨hleft, hright, hsound _ _ hs⟩

theorem bind {more : α → Task S γ} {more' : β → Task S δ} {post' : γ → δ → Prop}
    {last' : γ → C → Prop} (h : Tandem view p post last known t t')
    (hmore : ∀ a b, post a b → Tandem view p post' last' (last a) (more a) (more' b)) :
    Tandem view p post' last' known (t >>= more) (t' >>= more') := by
  change Tandem view p post' last' known (t.bind more) (t'.bind more')
  induction t generalizing known t' with
  | done a =>
    obtain ⟨b, rfl, hab, hlast⟩ := h
    exact (hmore a b hab).weaken hlast
  | step change next ih =>
    obtain ⟨change', next', rfl, γ, f, learnt, hf, hview, hnext⟩ := h
    exact ⟨change', _, rfl, γ, f, learnt, hf, hview, fun s s' hs hs' hfound =>
      ih s (hnext s s' hs hs' hfound)⟩

/-- Done alone, both find and leave the same. -/
theorem run (h : Tandem view p post last known t t') (hs : known (view s)) (hview : view s' = view s) :
    post (t.run s).1 (t'.run s').1 ∧ view (t'.run s').2 = view (t.run s).2 := by
  induction t generalizing known t' s s' with
  | done a =>
    obtain ⟨b, rfl, hab, -⟩ := h
    exact ⟨hab, hview⟩
  | step change next ih =>
    obtain ⟨change', next', rfl, γ, f, learnt, -, hchange, hnext⟩ := h
    have hs' : known (view s') := hview ▸ hs
    obtain ⟨hleft, -, hlearnt⟩ := hchange s hs
    obtain ⟨-, hright, -⟩ := hchange s' hs'
    have hlater := hnext s s' hs hs' (by rw [hview])
    have hsame : view (change' s') = view (change s) := by rw [hright, hleft, hview]
    rw [← hleft] at hlearnt
    have hrest := ih s hlater hlearnt hsame
    exact hrest

/-- Facts of another party last. -/
theorem keeps (hpq : Compatible p q) (hq : q.facts known') (h : Tandem view p post last known t t')
    (hp : p.facts known) (hs : known (view s)) (hs' : known' (view s)) :
    known' (view (t.run s).2) := by
  induction t generalizing known t' s with
  | done a => exact hs'
  | step change next ih =>
    obtain ⟨change', next', rfl, γ, f, learnt, ⟨hf, hfacts⟩, hchange, hnext⟩ := h
    obtain ⟨hleft, -, hlearnt⟩ := hchange s hs
    exact ih s (hnext s s hs hs rfl) (hfacts _) (hleft ▸ hlearnt)
      (hleft ▸ hpq.right hp hq hf hs hs')

/-- The act of another party can be done in front of all of the work or behind it. -/
theorem past (hpq : Compatible p q) (hq : q.facts known') {f : C → γ × C} (hf : q.acts f)
    (h : Tandem view p post last known t t') (hp : p.facts known) (hs : known (view s))
    (hs' : known' (view s)) (hview : view s' = (f (view s)).2) :
    post (t.run s).1 (t'.run s').1 ∧ view (t'.run s').2 = (f (view (t.run s).2)).2 ∧
      (f (view (t.run s).2)).1 = (f (view s)).1 := by
  induction t generalizing known t' s s' with
  | done a =>
    obtain ⟨b, rfl, hab, -⟩ := h
    exact ⟨hab, hview, rfl⟩
  | step change next ih =>
    obtain ⟨change', next', rfl, γ, g, learnt, ⟨hg, hfacts⟩, hchange, hnext⟩ := h
    have hlater : known (view s') := by
      rw [hview]
      exact hpq.left hp hq hf hs hs'
    obtain ⟨hleft, -, hlearnt⟩ := hchange s hs
    obtain ⟨-, hright, -⟩ := hchange s' hlater
    have hexchanged := hpq.exchanged hp hq hg hf hs hs'
    have hfound : (g (view s')).1 = (g (view s)).1 := by rw [hview, hexchanged.left]
    have hboth : view (change' s') = (f (view (change s))).2 := by
      rw [hright, hview, hleft, hexchanged.both]
    obtain ⟨hpost, hends, hsame⟩ := ih s (hnext s s' hs hlater hfound) (hfacts _)
      (hleft ▸ hlearnt) (hleft ▸ hpq.right hp hq hg hs hs') hboth
    refine ⟨hpost, hends, hsame.trans ?_⟩
    rw [hleft, hexchanged.right]

end Tandem

/-! ## Tasks side by side -/

/-- A task that does the acts of a party from now on, as far as what it finds there decides. -/
def Ready (view : S → C) (p : Party C) (s : S) (t : Task S α) : Prop :=
  ∃ known, p.facts known ∧ known (view s) ∧ Tandem view p Eq (fun _ _ => True) known t t

namespace Ready

variable {t : Task S α}

theorem congr (h : Ready view p s t) (hview : view s' = view s) : Ready view p s' t := by
  obtain ⟨known, hp, hs, htandem⟩ := h
  exact ⟨known, hp, hview ▸ hs, htandem⟩

/-- It stays so when another one does something. -/
theorem of_act (h : Ready view p s t) (hpq : Compatible p q) (hq : q.facts known')
    {f : C → γ × C} (hf : q.acts f) (hs' : known' (view s)) (hview : view s' = (f (view s)).2) :
    Ready view p s' t := by
  obtain ⟨known, hp, hs, htandem⟩ := h
  refine ⟨known, hp, ?_, htandem⟩
  rw [hview]
  exact hpq.left hp hq hf hs hs'

/-- It stays so when another one does all of its work. -/
theorem of_run {u : Task S β} (h : Ready view p s t) (hpq : Compatible p q) (hu : Ready view q s u) :
    Ready view p (u.run s).2 t := by
  obtain ⟨known, hp, hs, htandem⟩ := h
  obtain ⟨known', hq, hs', htandem'⟩ := hu
  exact ⟨known, hp, htandem'.keeps hpq.symm hp hq hs' hs, htandem⟩

theorem keeps (h : Ready view p s t) (hpq : Compatible p q) (hq : q.facts known')
    (hs' : known' (view s)) : known' (view (t.run s).2) := by
  obtain ⟨known, hp, hs, htandem⟩ := h
  exact htandem.keeps hpq hq hp hs hs'

end Ready

theorem runAll_done (results : List α) (s : S) : runAll (results.map .done) s = (results, s) := by
  induction results with
  | nil => rfl
  | cons a results ih =>
    change (a :: (runAll (results.map .done) s).1, (runAll (results.map .done) s).2) = _
    rw [ih]

theorem runAll_append (ts us : List (Task S α)) (s : S) :
    runAll (ts ++ us) s = ((runAll ts s).1 ++ (runAll us (runAll ts s).2).1,
      (runAll us (runAll ts s).2).2) := by
  induction ts generalizing s with
  | nil => rfl
  | cons t ts ih =>
    change ((t.run s).1 :: (runAll (ts ++ us) (t.run s).2).1, (runAll (ts ++ us) (t.run s).2).2) = _
    rw [ih]
    rfl

section Several

variable {X : Type} {party : X → Party C} {xs : List X} {ts : List (Task S α)}

/-- Tasks that are ready to do the acts of their parties. -/
abbrev AllReady (view : S → C) (party : X → Party C) (xs : List X) (s : S) (ts : List (Task S α)) :
    Prop := List.Forall₂ (fun x t => Ready view (party x) s t) xs ts

/-- Parties of which any two can exchange their acts. -/
abbrev AllCompatible (party : X → Party C) (xs : List X) : Prop :=
  xs.Pairwise fun x y => Compatible (party x) (party y)

/-- They stay ready when another one does something. -/
theorem AllReady.of_act (h : AllReady view party xs s ts) (hpq : ∀ x ∈ xs, Compatible (party x) q)
    (hq : q.facts known') {f : C → γ × C} (hf : q.acts f) (hs' : known' (view s))
    (hview : view s' = (f (view s)).2) : AllReady view party xs s' ts :=
  ((List.forall₂_and_left xs ts).2 ⟨hpq, h⟩).imp fun _ _ hx => hx.2.of_act hx.1 hq hf hs' hview

/-- They stay ready when another one does all of its work. -/
theorem AllReady.of_run {t : Task S α} (h : AllReady view party xs s ts)
    (hpq : ∀ x ∈ xs, Compatible p (party x)) (ht : Ready view p s t) :
    AllReady view party xs (t.run s).2 ts :=
  ((List.forall₂_and_left xs ts).2 ⟨hpq, h⟩).imp fun _ _ hx => hx.2.of_run hx.1.symm ht

/-- Facts of another party last while tasks are done one after the other. -/
theorem AllReady.keeps (h : AllReady view party xs s ts) (hxs : AllCompatible party xs)
    (hpq : ∀ x ∈ xs, Compatible (party x) q) (hq : q.facts known') (hs : known' (view s)) :
    known' (view (runAll ts s).2) := by
  induction ts generalizing xs s with
  | nil => exact hs
  | cons t ts ih =>
    obtain _ | ⟨ht, h⟩ := h
    obtain ⟨hx, hxs⟩ := List.pairwise_cons.1 hxs
    exact ih (AllReady.of_run h hx ht) hxs (fun x hmem => hpq x (.tail _ hmem))
      (ht.keeps (hpq _ (.head _)) hq hs)

/-- A task is still ready behind others that are done. -/
theorem Ready.of_runAll {t : Task S β} (h : Ready view q s t) (hts : AllReady view party xs s ts)
    (hxs : AllCompatible party xs) (hpq : ∀ x ∈ xs, Compatible (party x) q) :
    Ready view q (runAll ts s).2 t := by
  obtain ⟨known, hfact, hs, htandem⟩ := h
  exact ⟨known, hfact, hts.keeps hxs hpq hfact hs, htandem⟩

/-- Done one after the other, they find and leave the same if what counts is the same. -/
theorem AllReady.congr (h : AllReady view party xs s ts) (hxs : AllCompatible party xs)
    (hview : view s' = view s) :
    (runAll ts s').1 = (runAll ts s).1 ∧ view (runAll ts s').2 = view (runAll ts s).2 := by
  induction ts generalizing xs s s' with
  | nil => exact ⟨rfl, hview⟩
  | cons t ts ih =>
    obtain _ | ⟨ht, h⟩ := h
    obtain ⟨hx, hxs⟩ := List.pairwise_cons.1 hxs
    have hrest := AllReady.of_run h hx ht
    obtain ⟨known, -, hs, htandem⟩ := ht
    obtain ⟨hresult, hnext⟩ := htandem.run hs hview
    obtain ⟨hresults, hlast⟩ := ih hrest hxs hnext
    exact ⟨List.cons_eq_cons.2 ⟨hresult.symm, hresults⟩, hlast⟩

/-- The act of another party can be done in front of all of them or behind them. -/
theorem AllReady.past (h : AllReady view party xs s ts) (hxs : AllCompatible party xs)
    (hpq : ∀ x ∈ xs, Compatible (party x) q) (hq : q.facts known') {f : C → γ × C} (hf : q.acts f)
    (hs : known' (view s)) (hview : view s' = (f (view s)).2) :
    (runAll ts s').1 = (runAll ts s).1 ∧
      view (runAll ts s').2 = (f (view (runAll ts s).2)).2 ∧
      (f (view (runAll ts s).2)).1 = (f (view s)).1 := by
  induction ts generalizing xs s s' with
  | nil => exact ⟨rfl, hview, rfl⟩
  | cons t ts ih =>
    obtain _ | ⟨ht, h⟩ := h
    obtain ⟨hx, hxs⟩ := List.pairwise_cons.1 hxs
    have hhead := hpq _ (.head _)
    have hrest := AllReady.of_run h hx ht
    have hkept := ht.keeps hhead hq hs
    obtain ⟨known, hfact, hknown, htandem⟩ := ht
    obtain ⟨hresult, hnext, hfound⟩ := htandem.past hhead hq hf hfact hknown hs hview
    obtain ⟨hresults, hlast, hfound'⟩ := ih hrest hxs (fun x hmem => hpq x (.tail _ hmem)) hkept hnext
    exact ⟨List.cons_eq_cons.2 ⟨hresult.symm, hresults⟩, hlast, hfound'.trans hfound⟩

/-- The order of the steps makes no difference: the results are those of doing one task after the
other, and what counts is left the same. -/
theorem Interleave.runAll_eq {last : S} {results : List α} (h : Interleave ts s results last)
    (hxs : AllCompatible party xs) (hts : AllReady view party xs s ts) :
    results = (runAll ts s).1 ∧ view last = view (runAll ts s).2 := by
  induction h generalizing xs with
  | done results s =>
    rw [runAll_done]
    exact ⟨rfl, rfl⟩
  | @step before after change next s last results rest ih =>
    obtain ⟨y, xsb, xsa, rfl, hbefore, ⟨known, hfact, hs, htandem⟩, hafter⟩ :=
      exists_of_forall₂_append hts
    obtain ⟨_, _, heq, γ, f, learnt, ⟨hf, hfacts⟩, hchange, hnext⟩ := htandem
    cases heq
    obtain ⟨hview, -, hlearnt⟩ := hchange s hs
    obtain ⟨hxsb, hxsy, hcross⟩ := List.pairwise_append.1 hxs
    obtain ⟨hy, hxsa⟩ := List.pairwise_cons.1 hxsy
    have hby (x : X) (hx : x ∈ xsb) : Compatible (party x) (party y) := hcross x hx y (.head _)
    have hay (x : X) (hx : x ∈ xsa) : Compatible (party x) (party y) := (hy x hx).symm
    have hready : Ready view (party y) s (.step change next) :=
      ⟨known, hfact, hs, _, _, rfl, γ, f, learnt, ⟨hf, hfacts⟩, hchange, hnext⟩
    rw [← hview] at hlearnt
    obtain ⟨hresults, hlast⟩ := ih hxs (List.rel_append (AllReady.of_act hbefore hby hfact hf hs hview)
      (.cons ⟨_, hfacts _, hlearnt, hnext s s hs hs rfl⟩
        (AllReady.of_act hafter hay hfact hf hs hview)))
    -- The step that came first comes behind the tasks in front of it, and then its task goes on.
    obtain ⟨hfront, hpast, hfound⟩ := AllReady.past hbefore hxsb hby hfact hf hs hview
    have hkept := AllReady.keeps hbefore hxsb hby hfact hs
    obtain ⟨hview', -, hlearnt'⟩ := hchange _ hkept
    rw [← hview'] at hlearnt' hpast
    obtain ⟨hresult, hthen⟩ := (hnext _ s hkept hs hfound.symm).run hlearnt' hpast
    have hbehind : AllReady view party xsa (runAll before s).2 after :=
      ((List.forall₂_and_left xsa after).2 ⟨fun x hx z hz => hcross z hz x (.tail _ hx), hafter⟩).imp
        fun _ _ hx => hx.2.of_runAll hbefore hxsb hx.1
    obtain ⟨hback, hend⟩ := (AllReady.of_run hbehind hy
      (hready.of_runAll hbefore hxsb hby)).congr hxsa hthen
    rw [runAll_append] at hresults hlast ⊢
    rw [hresults, hlast]
    refine ⟨?_, hend⟩
    change _ ++ _ :: _ = _ ++ _ :: _
    rw [hfront]
    exact congrArg _ (List.cons_eq_cons.2 ⟨hresult.symm, hback⟩)

/-- All orders of the steps have the same results and leave the same of what counts. -/
theorem Interleave.same {last last' : S} {results results' : List α}
    (h : Interleave ts s results last) (h' : Interleave ts s' results' last')
    (hview : view s' = view s) (hxs : AllCompatible party xs) (hts : AllReady view party xs s ts) :
    results' = results ∧ view last' = view last := by
  have hts' : AllReady view party xs s' ts := List.Forall₂.imp (fun _ _ hx => hx.congr hview) hts
  obtain ⟨hresults, hlast⟩ := h.runAll_eq hxs hts
  obtain ⟨hresults', hlast'⟩ := h'.runAll_eq hxs hts'
  obtain ⟨hsame, hsame'⟩ := hts.congr hxs hview
  exact ⟨hresults'.trans (hsame.trans hresults.symm), hlast'.trans (hsame'.trans hlast.symm)⟩

/-- What none of the tasks changes lasts. -/
theorem Interleave.keeps {last : S} {results : List α} (h : Interleave ts s results last)
    (hxs : AllCompatible party xs) (hts : AllReady view party xs s ts) {fact : C → Prop}
    (hfact : ∀ x ∈ xs, ∀ {known : C → Prop}, (party x).facts known →
      ∀ {β : Type} {f : C → β × C}, (party x).acts f → ∀ {c}, known c → fact c → fact (f c).2)
    (hs : fact (view s)) : fact (view last) := by
  rw [(h.runAll_eq hxs hts).2]
  exact AllReady.keeps hts hxs (fun x hx => compatible_spectator (hfact x hx)) rfl hs

end Several

end Tandem

end Recast.Task
