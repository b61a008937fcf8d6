/-
  Proofs/Run/Processing.lean --- the second pass, in any order.

  The work on a file in the second pass sees the entry of the file in the cache, what its Go file
  holds and whether that can be written; it counts a look-up, stores the entry and writes the Go file
  (`Processing.Sight`, `Processing.Effect`).  So the work on different files neither sees nor undoes
  what is done for the others (`Processing.apart`).  Its requests do not depend on the order either if
  the answers of the service depend on the prompts alone (`Service.Determined`).
-/
import Recast.Proofs.Run.Analyzing
import Recast.Proofs.Run.Indexing

set_option autoImplicit false

namespace Recast

/-- A service whose answers are determined by the prompt. -/
structure Service.Determined {σ : Type} (service : Service σ) : Prop where
  complete : ∀ p u u', (service.complete p u').1 = (service.complete p u).1
  stream : ∀ p u u', (service.stream p u').1 = (service.stream p u).1

namespace Run

open Conversion (Item Job Stage Translator)

variable {σ : Type}

namespace Processing

/-! ## Sights and effects -/

/-- What the work on a file sees of what is shared: the entry of the file, the time, whether
translations are passed over, why its Go file cannot be written, and what it holds. -/
structure Sight where
  entry : Option Cache.Entry
  now : Timestamp
  force : Bool
  fault? : String → Option Layout.WriteError
  holds : String → Bool

/-- The translation that is found for content with a digest. -/
def Sight.translation? (seen : Sight) (digest : Digest) : Option Cache.Translation :=
  if seen.force then none else (Cache.matching digest seen.entry).bind (·.translation)

/-- What the work on a file can do. -/
inductive Effect where
  /-- Nothing. -/
  | rest
  /-- Count a look-up. -/
  | count (found : Bool)
  /-- Store an entry of the file. -/
  | keep (entry : Cache.Entry)
  /-- Write the Go file. -/
  | write (content : String)

/-- What the work on a file sees. -/
def see (output : Path) (a : Analyzed) (c : Stock) : Sight where
  entry := c.cache.remembers c.files a.file.path
  now := c.cache.now
  force := c.cache.force
  fault? content := (Layout.attempt c.files output a.placement content).1
  holds content := Layout.holds c.files (Layout.targetPath output a.placement) content

/-- Has an effect. -/
def perform (output : Path) (a : Analyzed) : Effect → Stock → Stock
  | .rest, c => c
  | .count found, c => { c with cache := c.cache.count found }
  | .keep entry, c => c.keep a.file.path entry
  | .write content, c =>
    { c with files := (Layout.attempt c.files output a.placement content).2 }

/-- The hand of the worker that works on a file. -/
def hand (output : Path) (a : Analyzed) : Task.Hand Stock where
  Sight := Sight
  Effect := Effect
  see := see output a
  perform := perform output a

/-- What is relied on: the cache does not fail. -/
def Intact (output : Path) (c : Stock) : Prop := Served output c.cache c.files

section Effects

variable {output : Path} {c : Stock} {a b : Analyzed}

theorem intact_perform (h : Intact output c) (ha : Proper a.placement) (e : Effect) :
    Intact output (perform output a e c) := by
  obtain ⟨cache, index, files⟩ := c
  cases e with
  | rest => exact h
  | count found => exact Served.count h found
  | keep entry => exact (Served.keep h a.file.path entry).1
  | write content => exact Served.attempt h ha content

/-- Different files, with places and entries of their own. -/
structure Distinct (a b : Analyzed) : Prop where
  paths : a.file.path ≠ b.file.path
  entries : Cache.ToldApart a.file.path b.file.path
  placements : a.placement ≠ b.placement
  left : Proper a.placement
  right : Proper b.placement

theorem Distinct.symm (h : Distinct a b) : Distinct b a :=
  ⟨h.paths.symm, fun heq => (h.entries heq.symm).symm, h.placements.symm, h.right, h.left⟩

/-- The work on a file sees nothing of what is done for another one. -/
theorem see_perform (h : Intact output c) (hab : Distinct a b) (e : Effect) :
    see output a (perform output b e c) = see output a c := by
  have hserved : Served output c.cache c.files := h
  have hnamed {p : Layout.Placement} (hp : Proper p) : Layout.Named p := ⟨hp.module, hp.file.isName⟩
  cases e with
  | rest => rfl
  | count found =>
    have hcount := Cache.consulted_count c.cache found
    have hentry : (c.cache.count found).remembers c.files a.file.path =
        c.cache.remembers c.files a.file.path := Cache.remembers_congr hcount.store _ _
    unfold see perform
    dsimp only
    rw [hentry, hcount.force]
    cases found <;> rfl
  | keep entry =>
    obtain ⟨-, store, hstore⟩ := hserved.keep b.file.path entry
    have hentry := hserved.remembers_keep hab.paths.symm hab.symm.entries entry
    have hfault (content : String) :=
      (hserved.keep_attempt hab.left content b.file.path entry).1
    have hholds (content : String) := hserved.holds_keep hab.left content b.file.path entry
    unfold see perform Stock.keep
    dsimp only at hfault ⊢
    rw [hentry, funext hfault, funext hholds, hstore]
  | write content =>
    have hentry := hserved.remembers_attempt hab.right content a.file.path
    have hfault (other : String) := hserved.outputs.fst_attempt_attempt (hnamed hab.right)
      (hnamed hab.left) hab.placements.symm content other
    have hholds (other : String) := hserved.outputs.holds_attempt (hnamed hab.right)
      (hnamed hab.left) hab.placements.symm content other
    unfold see perform
    dsimp only
    rw [hentry, funext hfault, funext hholds]

/-- What is done for different files can be done in either order. -/
theorem perform_comm (h : Intact output c) (hab : Distinct a b) (e e' : Effect) :
    perform output a e (perform output b e' c) = perform output b e' (perform output a e c) := by
  obtain ⟨cache, index, files⟩ := c
  have hserved : Served output cache files := h
  have hkeepCount (path : Path) (entry : Cache.Entry) (found : Bool) :
      Stock.keep path entry ⟨cache.count found, index, files⟩ =
        { Stock.keep path entry ⟨cache, index, files⟩ with
          cache := (Stock.keep path entry ⟨cache, index, files⟩).cache.count found } := by
    obtain ⟨hcache, hfiles⟩ := keep_count cache files path entry found
    unfold Stock.keep
    dsimp only
    rw [hcache, hfiles]
  have hkeepWrite {x y : Analyzed} (hx : Proper x.placement) (content : String)
      (entry : Cache.Entry) : perform output y (.keep entry) (perform output x (.write content)
          ⟨cache, index, files⟩) =
        perform output x (.write content) (perform output y (.keep entry)
          ⟨cache, index, files⟩) := by
    obtain ⟨-, hcache, hfiles⟩ := hserved.keep_attempt hx content y.file.path entry
    unfold perform Stock.keep
    dsimp only at hcache hfiles ⊢
    rw [hcache, hfiles]
  cases e with
  | rest => rfl
  | count found =>
    cases e' with
    | rest | write => rfl
    | count found' =>
      exact congrArg (Stock.mk · index files) (count_count cache found' found)
    | keep entry' => exact (hkeepCount b.file.path entry' found).symm
  | keep entry =>
    cases e' with
    | rest => rfl
    | count found' => exact hkeepCount a.file.path entry found'
    | keep entry' => exact (Stock.keep_keep hserved hab.paths hab.entries entry entry').symm
    | write content' => exact hkeepWrite hab.right content' entry
  | write content =>
    cases e' with
    | rest | count => rfl
    | keep entry' => exact (hkeepWrite hab.left content entry').symm
    | write content' =>
      have hwritten := (Layout.attempt_comm ⟨hab.left.module, hab.left.file.isName⟩
        ⟨hab.right.module, hab.right.file.isName⟩ hab.placements files output content content').1
      exact congrArg (Stock.mk cache index) hwritten.symm

/-- The work on different files neither sees nor undoes what is done for the other one. -/
theorem apart (hab : Distinct a b) :
    (hand output a).Apart (Intact output) (hand output b) where
  left _ hc := see_perform hc hab
  right _ hc := see_perform hc hab.symm
  both _ hc := perform_comm hc hab

end Effects

end Processing

/-! ## The work on a file -/

namespace Work

open Processing (Effect Sight)

variable {output : Path} {a : Analyzed}

/-- Work in the second pass that does the same as long as it sees the same. -/
abbrev Processes {α β : Type} (output : Path) (a : Analyzed) (post : α → β → Prop)
    (t : Task (Shared σ) α) (t' : Task (Shared σ) β) : Prop :=
  let sound := Processing.Intact output
  t.Tandem Shared.stock ((Processing.hand output a).party sound) post (fun _ => sound) sound t'

/-- A step of the second pass. -/
theorem processes_act {α β γ : Type} (ha : Proper a.placement) {post : α → β → Prop}
    (answer : Sight → γ) (effect : Sight → Effect) {g : Shared σ → α × Shared σ}
    {g' : Shared σ → β × Shared σ}
    (hview : ∀ s : Shared σ, Processing.Intact output s.stock →
      (g s).2.stock = Processing.perform output a (effect (Processing.see output a s.stock))
          s.stock ∧
        (g' s).2.stock = Processing.perform output a (effect (Processing.see output a s.stock))
          s.stock)
    (hpost : ∀ s s' : Shared σ, Processing.Intact output s.stock →
      Processing.Intact output s'.stock →
        answer (Processing.see output a s'.stock) = answer (Processing.see output a s.stock) →
          post (g s).1 (g' s').1) :
    Processes output a post (Task.act g) (Task.act g') :=
  Task.Tandem.act_of_hand (h := Processing.hand output a) answer effect hview
    (fun e _ hc => Processing.intact_perform hc ha e) hpost

/-- A step that changes nothing that counts. -/
theorem processes_rest {α β γ : Type} (ha : Proper a.placement) {post : α → β → Prop}
    (answer : Sight → γ) {g : Shared σ → α × Shared σ} {g' : Shared σ → β × Shared σ}
    (hview : ∀ s : Shared σ, Processing.Intact output s.stock →
      (g s).2.stock = s.stock ∧ (g' s).2.stock = s.stock)
    (hpost : ∀ s s' : Shared σ, answer (Processing.see output a s'.stock) =
      answer (Processing.see output a s.stock) → post (g s).1 (g' s').1) :
    Processes output a post (Task.act g) (Task.act g') :=
  processes_act ha answer (fun _ => .rest) hview fun s s' _ _ => hpost s s'

/-! ### Jobs -/

/-- The same file on its way, which has its place. -/
structure Twin (a : Analyzed) (item item' : Item) : Prop where
  eq : item' = item
  source : item.source = a.file
  placement : Layout.Placement.mk item.module item.goFile = a.placement

theorem Twin.change {item item' : Item} (h : Twin a item item') (f : Item → Item)
    (hf : ∀ item, (f item).source = item.source ∧ (f item).module = item.module ∧
      (f item).goFile = item.goFile) : Twin a (f item) (f item') := by
  obtain ⟨hsource, hmodule, hfile⟩ := hf item
  refine ⟨congrArg f h.eq, hsource.trans h.source, ?_⟩
  rw [hmodule, hfile]
  exact h.placement

theorem Twin.move {item item' : Item} (h : Twin a item item') (next : Stage) :
    Twin a (item.move next) (item'.move next) :=
  h.change (Item.move · next) fun _ => ⟨rfl, rfl, rfl⟩

/-- The same answer about the same file. -/
def TwinAnswer {β : Type} (a : Analyzed) (r r' : β × Job σ) : Prop :=
  r.1 = r'.1 ∧ Twin a r.2.item r'.2.item

section Jobs

variable {job job' : Job σ} (t : Translator σ)

/-- The service is asked, and answers the same. -/
theorem processes_asked {β : Type} (ha : Proper a.placement) {f : Job σ → β × Job σ}
    (hitem : Twin a job.item job'.item)
    (hf : ∀ job, ∃ outside, (f job).2 = { job with outside })
    (hanswer : ∀ s s' : Shared σ, (f (s.lend job)).1 = (f (s'.lend job')).1) :
    Processes output a (TwinAnswer a) (onJob f job) (onJob f job') := by
  refine processes_rest ha (fun _ => ()) (fun s _ => ?_) fun s s' _ => ?_
  · obtain ⟨outside, hleft⟩ := hf (s.lend job)
    obtain ⟨outside', hright⟩ := hf (s.lend job')
    dsimp only
    rw [hleft, hright]
    exact ⟨rfl, rfl⟩
  · obtain ⟨outside, hleft⟩ := hf (s.lend job)
    obtain ⟨outside', hright⟩ := hf (s'.lend job')
    refine ⟨hanswer s s', ?_⟩
    dsimp only
    rw [hleft, hright]
    exact hitem

section Requests

variable (ha : Proper a.placement) (hservice : t.service.Determined)
  (hitem : Twin a job.item job'.item)

include ha hservice hitem

theorem processes_requestWhole (prompt : Prompt) :
    Processes output a (TwinAnswer a) (requestWhole t prompt job)
      (requestWhole t prompt job') := by
  have hasked : Processes output a (TwinAnswer a)
      (onJob (complete t prompt) job) (onJob (complete t prompt) job') :=
    processes_asked ha hitem (fun _ => ⟨_, rfl⟩) fun _ _ => hservice.complete prompt _ _
  refine hasked.bind ?_
  rintro ⟨answer, asked⟩ ⟨answer', asked'⟩ ⟨hanswer, hitem⟩
  dsimp only at hanswer
  subst hanswer
  cases answer with
  | ok text => exact .pure ⟨rfl, (hitem.move .complete).move .extracted⟩ fun _ hc => hc
  | error e => exact .pure ⟨rfl, hitem⟩ fun _ hc => hc

omit hservice in
theorem processes_readStream (chunks : List Chunk) :
    Processes output a (TwinAnswer a) (readStream t chunks job)
      (readStream t chunks job') := by
  unfold readStream
  generalize Reply.ofChunks t.settings.earlyStop chunks = reply
  obtain ⟨read, result⟩ := reply
  have htold : Processes output a (TwinAnswer a)
      (onJob (taken t read) (job.move .streaming)) (onJob (taken t read) (job'.move .streaming)) :=
    processes_asked ha (hitem.move .streaming) (fun _ => ⟨_, rfl⟩) fun _ _ => rfl
  refine htold.bind ?_
  rintro ⟨_, told⟩ ⟨_, told'⟩ ⟨-, hitem⟩
  cases result with
  | ok extraction => exact .pure ⟨rfl, hitem.move .extracted⟩ fun _ hc => hc
  | error e => exact .pure ⟨rfl, hitem⟩ fun _ hc => hc

theorem processes_request (prompt : Prompt) :
    Processes output a (TwinAnswer a) (request t prompt job)
      (request t prompt job') := by
  unfold request
  split
  · have hasked : Processes output a (TwinAnswer a)
        (onJob (stream t prompt) job) (onJob (stream t prompt) job') :=
      processes_asked ha hitem (fun _ => ⟨_, rfl⟩) fun _ _ => hservice.stream prompt _ _
    refine hasked.bind ?_
    rintro ⟨answer, asked⟩ ⟨answer', asked'⟩ ⟨hanswer, hitem⟩
    dsimp only at hanswer
    subst hanswer
    cases answer with
    | ok chunks => exact processes_readStream t ha hitem chunks
    | error e =>
      cases e with
      | streamingUnsupported => exact processes_requestWhole t ha hservice hitem prompt
      | timeout | cancelled | service | malformed => exact .pure ⟨rfl, hitem⟩ fun _ hc => hc
  · exact processes_requestWhole t ha hservice hitem prompt

omit hservice in
/-- Code that is valid is stored. -/
theorem processes_accept (code : String) (n : Nat) :
    Processes output a
      (fun accepted accepted' => Twin a accepted.item accepted'.item) (accept t code n job)
      (accept t code n job') := by
  have hpath {job : Job σ} {item : Item} (h : Twin a job.item item) :
      job.path = a.file.path := congrArg SourceFile.path h.source
  have hpath' : job'.path = a.file.path := by
    rw [Job.path, hitem.eq]
    exact hpath hitem
  have hloaded : Processes output a (TwinAnswer a)
      (onJob loadEntry (job.move .valid)) (onJob loadEntry (job'.move .valid)) := by
    have hstock {job : Job σ} (s : Shared σ) (hs : Processing.Intact output s.stock) :
        (s.back (loadEntry (s.lend job)).2).stock = s.stock :=
      congrArg (Stock.mk · s.index s.files) (Served.load hs job.path)
    refine processes_rest ha (fun seen => (seen.entry, seen.now))
      (fun s hs => ⟨hstock s hs, hstock s hs⟩) fun s s' hsame => ⟨?_, hitem.move .valid⟩
    change ((s.cache.load s.files job.path).1, s.cache.now) =
      ((s'.cache.load s'.files job'.path).1, s'.cache.now)
    rw [hpath hitem, hpath']
    exact hsame.symm
  refine hloaded.bind ?_
  rintro ⟨⟨entry, now⟩, loaded⟩ ⟨⟨entry', now'⟩, loaded'⟩ ⟨hanswer, hitem⟩
  cases hanswer
  have hloadedPath := hpath hitem
  have hloadedPath' : loaded'.path = a.file.path := by
    rw [Job.path, hitem.eq]
    exact hloadedPath
  dsimp only
  rw [hitem.eq]
  have hkept : Processes output a (TwinAnswer a)
      (onJob (keepEntry (entryWith t code n loaded.item entry now)) loaded)
      (onJob (keepEntry (entryWith t code n loaded.item entry now)) loaded') := by
    refine processes_act ha (fun _ => ())
      (fun _ => .keep (entryWith t code n loaded.item entry now)) (fun s _ => ?_)
      fun _ _ _ _ _ => ⟨rfl, hitem⟩
    exact ⟨congrArg (Stock.keep · _ s.stock) hloadedPath, congrArg (Stock.keep · _ s.stock)
      hloadedPath'⟩
  refine hkept.bind ?_
  rintro ⟨_, kept⟩ ⟨_, kept'⟩ ⟨-, hitem⟩
  exact .pure (hitem.change (fun item => { item with output := some code }.move .done)
    fun _ => ⟨rfl, rfl, rfl⟩) fun _ hc => hc

omit hservice in
theorem processes_judge (code : String) (n : Nat) :
    Processes output a (TwinAnswer a) (judge t code n job)
      (judge t code n job') := by
  unfold judge
  rw [hitem.eq]
  dsimp only
  split
  · have haccepted (code : String) (log : Log) : Processes output a
        (fun accepted accepted' => Twin a accepted.item accepted'.item)
        (accept t code n (job.say log)) (accept t code n (job'.say log)) := by
      have hsaid : Twin a (job.say log).item (job'.say log).item := hitem
      exact processes_accept t ha hsaid code n
    refine (haccepted _ _).bind ?_
    rintro accepted accepted' hitem
    exact .pure ⟨rfl, hitem⟩ fun _ hc => hc
  · exact .pure ⟨rfl, (hitem.move .invalid).change (fun item => { item with
      failures := item.failures ++ ["attempt " ++ toString n ++ ": " ++ _] })
        fun _ => ⟨rfl, rfl, rfl⟩⟩ fun _ hc => hc

theorem processes_attempt (prompt : Prompt) (n : Nat) :
    Processes output a (TwinAnswer a) (attempt t prompt n job)
      (attempt t prompt n job') := by
  have hsent := hitem.change (fun item => { item with attempts := n }.move .requestSent)
    fun _ => ⟨rfl, rfl, rfl⟩
  have hasked : Processes output a (TwinAnswer a)
      (request t prompt ({ job with item := { job.item with attempts := n } }.move .requestSent))
      (request t prompt ({ job' with item := { job'.item with attempts := n } }.move .requestSent)) :=
    processes_request t ha hservice hsent prompt
  refine hasked.bind ?_
  rintro ⟨answer, asked⟩ ⟨answer', asked'⟩ ⟨hanswer, hitem⟩
  dsimp only at hanswer
  subst hanswer
  cases answer with
  | ok code => exact processes_judge t ha hitem code n
  | error e =>
    have hfailed := hitem.change (fun item => { item with
      failures := item.failures ++ ["attempt " ++ toString n ++ ": " ++ e.message] })
      fun _ => ⟨rfl, rfl, rfl⟩
    cases e with
    | cancelled => exact .pure ⟨rfl, hitem⟩ fun _ hc => hc
    | timeout | service | malformed | streamingUnsupported =>
      exact .pure ⟨rfl, hfailed⟩ fun _ hc => hc

omit hservice in
/-- The work is not given up. -/
theorem processes_isCancelled (hgoes : t.service.GoesOn) :
    Processes output a (fun r r' => r.1 = false ∧ TwinAnswer a r r')
      (onJob t.isCancelled job) (onJob t.isCancelled job') :=
  processes_rest ha (fun _ => ()) (fun _ _ => ⟨rfl, rfl⟩) fun s s' _ =>
    ⟨hgoes _, (hgoes s.outside).trans (hgoes s'.outside).symm, hitem⟩

theorem processes_attempts (hgoes : t.service.GoesOn) (prompt : Prompt) (left n : Nat) :
    Processes output a (TwinAnswer a) (attempts t prompt left n job)
      (attempts t prompt left n job') := by
  induction left generalizing n job job' with
  | zero =>
    have hlast := hitem.change (fun item => { item.move .templateFallback with
      output := some (Go.Skeleton.render item.module item.source.path.fileName
        (item.outline.getD {})), fallback := true }.move .done) fun _ => ⟨rfl, rfl, rfl⟩
    exact .pure ⟨rfl, hlast⟩ fun _ hc => hc
  | succ left ih =>
    refine (processes_isCancelled t ha hitem hgoes).bind ?_
    rintro ⟨cancelled, asked⟩ ⟨cancelled', asked'⟩ ⟨hgoing, hanswer, hitem⟩
    dsimp only at hgoing hanswer
    subst hgoing hanswer
    refine (processes_attempt t ha hservice hitem prompt n).bind ?_
    rintro ⟨ending, tried⟩ ⟨ending', tried'⟩ ⟨hanswer, hitem⟩
    dsimp only at hanswer
    subst hanswer
    cases ending with
    | finished => exact .pure ⟨rfl, hitem⟩ fun _ hc => hc
    | cancelled =>
      exact .pure ⟨rfl, hitem.change (fun item =>
        { item with failure := some "conversion cancelled" }.move .cancelled)
        fun _ => ⟨rfl, rfl, rfl⟩⟩ fun _ hc => hc
    | failed =>
      refine ih ?_ (n + 1)
      split
      · exact hitem
      · exact hitem.move .retry

end Requests

/-- The translation that the cache has is looked up. -/
theorem processes_lookUp (ha : Proper a.placement) (hitem : Twin a job.item job'.item) :
    Processes output a (TwinAnswer a) (onJob lookUp job) (onJob lookUp job') := by
  have hlooks {job : Job σ} (hsource : job.item.source = a.file) (s : Shared σ) :
      let found := (Processing.see output a s.stock).translation? a.file.digest
      (lookUp (s.lend job)).1 = found ∧ (Processing.Intact output s.stock →
        (s.back (lookUp (s.lend job)).2).stock =
          Processing.perform output a (.count found.isSome) s.stock) := by
    have hlooked : lookUp (s.lend job) =
        ((s.cache.translation? s.files a.file.path a.file.digest).1,
          { s.lend job with
            cache := (s.cache.translation? s.files a.file.path a.file.digest).2.1 }.say
              (s.cache.translation? s.files a.file.path a.file.digest).2.2) := by
      rw [← hsource]
      rfl
    have hfound := Cache.fst_translation? s.cache s.files a.file.path a.file.digest
    rw [hlooked]
    refine ⟨hfound, fun hs => congrArg (Stock.mk · s.index s.files) ?_⟩
    have hcount := Served.snd_translation? hs a.file.path a.file.digest
    exact hcount.trans (congrArg (fun hit : Option Cache.Translation => s.cache.count hit.isSome)
      hfound)
  have hsource' : job'.item.source = a.file := by rw [hitem.eq, hitem.source]
  refine processes_act ha (fun seen => seen.translation? a.file.digest)
    (fun seen => .count (seen.translation? a.file.digest).isSome)
    (fun s hs => ⟨(hlooks hitem.source s).2 hs, (hlooks hsource' s).2 hs⟩)
    fun s s' _ _ hsame => ?_
  have hleft := (hlooks hitem.source s).1
  have hright := (hlooks hsource' s').1
  exact ⟨hleft.trans (hsame.symm.trans hright.symm), hitem⟩

/-- A file is converted in the same way as long as the same is seen. -/
theorem processes_convert (ha : Proper a.placement) (hservice : t.service.Determined)
    (hgoes : t.service.GoesOn) (hitem : Twin a job.item job'.item) :
    Processes output a (TwinAnswer a) (convert t job) (convert t job') := by
  refine (processes_isCancelled t ha hitem hgoes).bind ?_
  rintro ⟨cancelled, asked⟩ ⟨cancelled', asked'⟩ ⟨hgoing, hanswer, hitem⟩
  dsimp only at hgoing hanswer
  subst hgoing hanswer
  have hlooked : Processes output a (TwinAnswer a)
      (onJob lookUp (asked.move .cacheCheck)) (onJob lookUp (asked'.move .cacheCheck)) :=
    processes_lookUp ha (hitem.move .cacheCheck)
  refine hlooked.bind ?_
  rintro ⟨hit, looked⟩ ⟨hit', looked'⟩ ⟨hanswer, hitem⟩
  dsimp only at hanswer
  subst hanswer
  cases hit with
  | some hit =>
    have houtput := hitem.change (fun item => { item with
      output := some (Go.retargetString hit.output item.module) }) fun _ => ⟨rfl, rfl, rfl⟩
    have hreused : Twin a (Translator.reuse hit looked).item (Translator.reuse hit looked').item :=
      ⟨congrArg (fun item : Item => ({ item with cached := true }.move .cacheHit).move .done) houtput.eq,
        houtput.source, houtput.placement⟩
    exact .pure ⟨rfl, hreused⟩ fun _ hc => hc
  | none =>
    have hbuilt := (hitem.move .cacheMiss).move .contextBuild
    dsimp only [translate]
    rw [show ((looked'.move .cacheMiss).move .contextBuild).item =
      ((looked.move .cacheMiss).move .contextBuild).item from hbuilt.eq]
    exact processes_attempts t ha hservice hbuilt hgoes _ _ _

end Jobs

/-! ### Items -/

section Items

variable {item : Item} (t : Translator σ) (refuses : Layout.Placement → Option Layout.WriteError)

theorem processes_put (ha : Proper a.placement)
    (hplace : Layout.Placement.mk item.module item.goFile = a.placement) (content : String) :
    Processes output a Eq (put output refuses item content : Task (Shared σ) Item)
      (put output refuses item content) := by
  unfold put
  rw [hplace]
  dsimp only
  cases refuses a.placement with
  | some e => exact processes_rest ha (fun _ => ()) (fun _ _ => ⟨rfl, rfl⟩) fun _ _ _ => rfl
  | none =>
    refine processes_act ha (fun seen => seen.fault? content) (fun _ => .write content)
      (fun s _ => ?_) fun s s' _ _ hsame => ?_
    · unfold Processing.perform Layout.attempt Shared.stock
      dsimp only
      obtain ⟨result, files⟩ := Layout.write s.files output a.placement content
      cases result <;> exact ⟨rfl, rfl⟩
    · unfold Processing.see Layout.attempt Shared.stock at hsame
      dsimp only at hsame ⊢
      generalize Layout.write s.files output a.placement content = wrote at hsame ⊢
      generalize Layout.write s'.files output a.placement content = wrote' at hsame ⊢
      obtain ⟨result, files⟩ := wrote
      obtain ⟨result', files'⟩ := wrote'
      cases result with
      | ok written =>
        cases result' with
        | ok written' => rfl
        | error e' => cases hsame
      | error e =>
        cases result' with
        | ok written' => cases hsame
        | error e' =>
          cases hsame
          rfl

/-- A translation that was found is only written if its Go file does not hold it. -/
theorem processes_write (ha : Proper a.placement)
    (hplace : Layout.Placement.mk item.module item.goFile = a.placement) (content : String) :
    Processes output a Eq (write output refuses item content : Task (Shared σ) Item)
      (write output refuses item content) := by
  have hput : Processes output a Eq
      (put output refuses item content : Task (Shared σ) Item) (put output refuses item content) :=
    processes_put refuses ha hplace content
  unfold write
  dsimp only
  split
  · rw [hplace]
    have hasked : Processes output a Eq
        (Task.act fun s : Shared σ => (Layout.holds s.files (Layout.targetPath output a.placement)
          content, s))
        (Task.act fun s : Shared σ => (Layout.holds s.files (Layout.targetPath output a.placement)
          content, s)) :=
      processes_rest ha (fun seen => seen.holds content) (fun _ _ => ⟨rfl, rfl⟩)
        fun _ _ hsame => hsame.symm
    refine hasked.bind ?_
    rintro holds _ rfl
    cases holds with
    | true => exact .pure rfl fun _ hc => hc
    | false => exact hput
  · exact hput

theorem processes_finish (ha : Proper a.placement) (hgoes : t.service.GoesOn)
    (hplace : Layout.Placement.mk item.module item.goFile = a.placement) :
    Processes output a Eq (finish t output refuses item) (finish t output refuses item) := by
  unfold finish
  cases item.output with
  | none => exact .pure rfl fun _ hc => hc
  | some content =>
    have hgoing : Processes output a
        (fun cancelled cancelled' => cancelled = false ∧ cancelled' = false)
        (Task.act (isCancelled t)) (Task.act (isCancelled t)) :=
      processes_rest ha (fun _ => ()) (fun _ _ => ⟨rfl, rfl⟩)
        fun s s' _ => ⟨hgoes s.outside, hgoes s'.outside⟩
    refine hgoing.bind ?_
    rintro _ _ ⟨rfl, rfl⟩
    exact processes_write refuses ha hplace content

/-- The work on a file in the second pass does the same as long as it sees the same. -/
theorem processes_process (ha : Proper a.placement) (hservice : t.service.Determined)
    (hgoes : t.service.GoesOn) :
    Processes output a Eq (process t output refuses a) (process t output refuses a) := by
  unfold process
  cases a.outline with
  | error reason =>
    exact processes_act ha (fun _ => ()) (fun _ => .rest) (fun _ _ => ⟨rfl, rfl⟩)
      fun _ _ _ _ _ => rfl
  | ok outline =>
    dsimp only
    have hlent : Processes output a
        (fun job job' : Job σ => Twin a job.item job'.item)
        (Task.act fun s : Shared σ => (⟨Item.start a.file (some outline) a.placement.module
          a.placement.fileName, s.cache, s.files, s.outside, []⟩, s))
        (Task.act fun s : Shared σ => (⟨Item.start a.file (some outline) a.placement.module
          a.placement.fileName, s.cache, s.files, s.outside, []⟩, s)) :=
      processes_rest ha (fun _ => ()) (fun _ _ => ⟨rfl, rfl⟩) fun _ _ _ => ⟨rfl, rfl, rfl⟩
    refine hlent.bind fun job job' hitem => ?_
    refine (processes_convert t ha hservice hgoes hitem).bind ?_
    rintro ⟨done, job⟩ ⟨done', job'⟩ ⟨hdone, hitem⟩
    dsimp only at hdone hitem
    subst hdone
    have hsaid : Processes output a (fun _ _ => True)
        (Task.act fun s : Shared σ => ((), s.say job.log))
        (Task.act fun s : Shared σ => ((), s.say job'.log)) :=
      processes_rest ha (fun _ => ()) (fun _ _ => ⟨rfl, rfl⟩) fun _ _ _ => trivial
    refine hsaid.bind fun _ _ _ => ?_
    rw [hitem.eq]
    cases done with
    | false => exact .pure rfl fun _ hc => hc
    | true => exact processes_finish t refuses ha hgoes hitem.placement

end Items

end Work

/-- Files are worked on in any order of the steps: what becomes of them is the same, and so is what is
left in the end. -/
theorem processed_same {output : Path} {t : Translator σ}
    {refuses : Layout.Placement → Option Layout.WriteError} {as : List Analyzed}
    (hdistinct : as.Pairwise Processing.Distinct) (hproper : ∀ a ∈ as, Proper a.placement)
    (hservice : t.service.Determined) (hgoes : t.service.GoesOn) {s worked : Shared σ}
    {items : List Item} (hs : Processing.Intact output s.stock)
    (h : Task.Interleave (as.map (Work.process t output refuses)) s items worked)
    {s' worked' : Shared σ} {items' : List Item} (hview : s'.stock = s.stock)
    (h' : Task.Interleave (as.map (Work.process t output refuses)) s' items' worked') :
    items' = items ∧ worked'.stock = worked.stock := by
  have hapart : Task.AllCompatible (fun a =>
      (Processing.hand output a).party (Processing.Intact output)) as := by
    refine hdistinct.imp_of_mem fun {a b} ha hb hab => ?_
    exact (Processing.apart hab).compatible
      (fun e _ hc => Processing.intact_perform hc (hproper a ha) e)
      fun e _ hc => Processing.intact_perform hc (hproper b hb) e
  have hready : Task.AllReady Shared.stock (fun a =>
      (Processing.hand output a).party (Processing.Intact output)) as s
      (as.map (Work.process t output refuses)) := by
    rw [Task.AllReady, List.forall₂_map_right_iff, List.forall₂_same]
    refine fun a ha => ⟨_, rfl, hs, ?_⟩
    exact (Work.processes_process t refuses (hproper a ha) hservice hgoes).mono fun _ _ _ => trivial
  exact h.same h' hview hapart hready

end Run

end Recast
