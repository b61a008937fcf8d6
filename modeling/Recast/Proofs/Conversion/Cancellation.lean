/-
  Proofs/Conversion/Cancellation.lean --- a conversion that is given up leaves nothing behind.

  The service may be cancelled before a conversion, between its attempts, when it is asked or in the
  middle of an answer.  Whenever that is, the file ends without anything that was made for it and
  the store as it was (`GivenUp`).  Otherwise it ends with an output, and what the store has for
  other files stays (`Completed`).
-/
import Recast.Proofs.Conversion.Validity

set_option autoImplicit false

namespace Recast

/-- What the store answers when it is asked for the entry of a file. -/
def Cache.answer (c : Cache) (files : Files) (path : Path) :
    Except String (Except Cache.StoreError (Option ByteArray)) :=
  c.store.map fun s => s.get files (Cache.entryKey path)

namespace Cache

theorem answer_congr {c d : Cache} (h : d.store = c.store) (files : Files) (path : Path) :
    d.answer files path = c.answer files path := by
  rw [answer, h, answer]

/-- A change of the entry of a file leaves the entries of others, unless they show as the same text.
-/
theorem answer_update (c : Cache) (files : Files) {path other : Path} (digest : Digest)
    (change : Entry → Entry) (apart : c.Separates path other) (hne : path.text ≠ other.text) :
    (c.update files path digest change).1.answer (c.update files path digest change).2.1 other =
      c.answer files other := by
  rcases update_cases c files path digest change with ⟨hcache, hfiles, -⟩ |
      ⟨s, t, d, hstore, -, hcache, hput⟩
  · rw [hfiles, answer_congr hcache.store]
  · have hkeys : entryKey path ≠ entryKey other := fun heq => hne (entryKey_inj.1 heq)
    rw [hcache, answer, answer, hstore]
    exact congrArg Except.ok (Store.get_put_of_ne hput (apart s hstore) hkeys)

/-- The entry of a file is that of every other one that shows as the same text. -/
theorem answer_congr_text {path other : Path} (h : path.text = other.text) (c : Cache)
    (files : Files) : c.answer files path = c.answer files other := by
  rw [answer, answer, entryKey_inj.2 h]

end Cache

namespace Conversion

variable {σ : Type}

/-- A job that was given up: nothing was made for the file, and the store is as it was. -/
structure GivenUp (cache : Cache) (files : Files) (job : Job σ) : Prop where
  stage : job.item.stage = .cancelled
  output : job.item.output = none
  cached : job.item.cached = false
  fallback : job.item.fallback = false
  failure : job.item.failure = some "conversion cancelled"
  store : job.cache.store = cache.store
  files : job.files = files

/-- A job that was finished: there is something for the file, and other files have the entries that
they had, unless they show as the same text. -/
structure Completed (cache : Cache) (files : Files) (job : Job σ) : Prop where
  stage : job.item.stage = .done
  output : ∃ code, job.item.output = some code
  failure : job.item.failure = none
  others : ∀ other, job.path.text ≠ other.text → cache.Separates job.path other →
    job.cache.answer job.files other = cache.answer files other

namespace Keeps

variable {a b : Job σ}

theorem answer (h : Keeps a b) (path : Path) :
    b.cache.answer b.files path = a.cache.answer a.files path := by
  rw [h.files, Cache.answer_congr h.cache.store]

/-- Giving up a job leaves nothing behind that was not there at its start. -/
theorem givenUp (h : Keeps a b) (output : a.item.output = none) (cached : a.item.cached = false)
    (fallback : a.item.fallback = false) : GivenUp a.cache a.files b.cancel := by
  obtain ⟨attempts, failures, later, hitem⟩ := h.item
  refine ⟨rfl, ?_, ?_, ?_, rfl, h.cache.store, h.files⟩
  · rw [← output, Job.cancel, Job.item_move, hitem]
    rfl
  · rw [← cached, Job.cancel, Job.item_move, hitem]
    rfl
  · rw [← fallback, Job.cancel, Job.item_move, hitem]
    rfl

end Keeps

namespace Translator

variable (t : Translator σ)

/-- Of the ways in which a fresh job can end one gives it up, and the others finish it. -/
theorem Ends.cases_fresh {job : Job σ} (output : job.item.output = none)
    (cached : job.item.cached = false) (fallback : job.item.fallback = false)
    (failure : job.item.failure = none) {result : Bool × Job σ} (h : t.Ends job result) :
    result.1 = false ∧ GivenUp job.cache job.files result.2 ∨
      result.1 = true ∧ result.2.path = job.path ∧ Completed job.cache job.files result.2 := by
  have hfailure (last : Job σ) (kept : Keeps job last) : last.item.failure = none := by
    obtain ⟨_, _, _, hitem⟩ := kept.item
    rw [hitem, failure]
  cases h with
  | cancelled kept => exact .inl ⟨rfl, kept.givenUp output cached fallback⟩
  | @reused last hit kept found =>
    have hnone : (reuse hit last).item.failure = none := hfailure last kept
    exact .inr ⟨rfl, kept.path, rfl, ⟨_, rfl⟩, hnone, fun other _ _ => kept.answer other⟩
  | @fellBack last kept =>
    have hnone : (fallBack last).item.failure = none := hfailure last kept
    exact .inr ⟨rfl, kept.path, rfl, ⟨_, rfl⟩, hnone, fun other _ _ => kept.answer other⟩
  | @accepted last code n kept checked count =>
    have hnone : (t.accept code n last).item.failure = none := hfailure last kept
    have hpath : (t.accept code n last).path = last.path := rfl
    refine .inr ⟨rfl, kept.path, rfl, ⟨code, rfl⟩, hnone, fun other hne apart => ?_⟩
    rw [hpath] at hne apart
    have hseparates : last.cache.Separates last.path other := fun s hs =>
      apart s (kept.cache.store.symm.trans hs)
    rw [← kept.answer other, cache_accept, files_accept]
    exact Cache.answer_update last.cache last.files _ _ hseparates hne

end Translator

/-- A conversion is given up as a whole or finished as a whole, whatever the cache holds and however
the service behaves; the entry of another file stays, unless the two show as the same text. -/
theorem convert_givenUp_or_completed (t : Translator σ) (source : SourceFile)
    (outline : Option Outline) (module goFile : String) (cache : Cache) (files : Files)
    (outside : σ) :
    let result := t.convert (.start source outline module goFile cache files outside)
    (result.1 = false ↔ result.2.item.stage = .cancelled) ∧
      (result.1 = false → GivenUp cache files result.2) ∧
      (result.1 = true → result.2.path = source.path ∧ Completed cache files result.2) := by
  intro result
  have hends := t.convert_ends (.start source outline module goFile cache files outside)
  rcases hends.cases_fresh t rfl rfl rfl rfl with ⟨hresult, hgivenUp⟩ | ⟨hresult, hpath, hcompleted⟩
  · exact ⟨iff_of_true hresult hgivenUp.stage, fun _ => hgivenUp,
      fun htrue => absurd (hresult.symm.trans htrue) Bool.false_ne_true⟩
  · have hnot : result.1 ≠ false := fun hfalse =>
      absurd (hfalse.symm.trans hresult) Bool.false_ne_true
    have hstage : result.2.item.stage ≠ .cancelled := by
      rw [hcompleted.stage]
      exact Stage.noConfusion
    exact ⟨iff_of_false hnot hstage, fun hfalse => absurd hfalse hnot,
      fun _ => ⟨hpath, hcompleted⟩⟩

/-- A service that fails once and is cancelled in the middle of its second answer. -/
def breakingOff : Service Nat where
  name := "breaking_off"
  streams := true
  complete _ n := (.error .cancelled, n)
  stream _ n :=
    (if n = 0 then .error (.malformed "nothing") else .ok [.ok "package ", .error .cancelled],
      n + 1)
  taken _ n := n
  cancelled n := (false, n)

/-- A conversion that is given up in the middle of an answer, after a failed attempt. -/
theorem convert_givenUp_midStream :
    ∃ job : Job Nat, job.item.attempts = 2 ∧ job.item.trace.contains .streaming = true ∧
      GivenUp { store := .ok .memory } {} job := by
  let t : Translator Nat := ⟨breakingOff, {}, .disabled, {}⟩
  have hgivenUp := (convert_givenUp_or_completed t (sourceOf "x = 1\n") none "common" "a.go"
    { store := .ok .memory } {} 0).2.1 (by decide +kernel)
  exact ⟨_, by decide +kernel, by decide +kernel, hgivenUp⟩

/-- A file that is finished brings an entry to another one that shows as the same text. -/
theorem convert_fails_others :
    ¬∀ (t : Translator Programmed) (source : SourceFile) (outline : Option Outline)
      (module goFile : String) (cache : Cache) (files : Files) (outside : Programmed) (other : Path)
      (result : Bool × Job Programmed),
      t.convert (.start source outline module goFile cache files outside) = result →
      result.1 = true → other ≠ source.path → cache.Separates source.path other →
        result.2.cache.answer result.2.files other = cache.answer files other := by
  intro hclaim
  let t : Translator Programmed := ⟨Programmed.usual.service, {}, .disabled, {}⟩
  let source : SourceFile := ⟨.ofByte 0xFE, "x = 1\n".toUTF8, none⟩
  let c : Cache := { store := .ok .memory }
  let result := t.convert (.start source (some {}) "common" "a.go" c {} .usual)
  have hended : result.1 = true := by decide +kernel
  have hsame := hclaim t source (some {}) "common" "a.go" c {} .usual (.ofByte 0xFF) result rfl
    hended (by decide) (by rintro _ ⟨rfl⟩ _ ⟨⟩)
  -- The cache has an entry for the file, and so for the other one.
  have hthere : (result.2.cache.answer result.2.files (.ofByte 0xFE)).toOption.bind (·.toOption) ≠
      some none := by
    decide +kernel
  rw [Cache.answer_congr_text Path.text_ofByte, hsame] at hthere
  exact absurd rfl hthere

end Conversion

end Recast
