/-
  Proofs/Conversion/Validity.lean --- only Go that was checked is kept, and it stays valid.

  What the cache keeps was checked under the package name of its time.  A look-up gives it another
  name without a check, which is safe because the name does not decide about validity.
-/
import Recast.Inference.Programmed
import Recast.Proofs.Cache.Working
import Recast.Proofs.Conversion.Translate
import Recast.Proofs.Go.Package

set_option autoImplicit false

namespace Recast.Conversion

variable {σ : Type}

/-- A job for a file that nothing has happened to. -/
def Job.start (source : SourceFile) (outline : Option Outline) (module goFile : String)
    (cache : Cache) (files : Files) (outside : σ) : Job σ :=
  { item := .start source outline module goFile, cache, files, outside }

/-- The caches, with the files they are kept in, that conversions lead to from an empty one, with
or without the tools of a Go installation.  Between conversions everything but the store may
change. -/
inductive Served : Cache → Files → Prop
  | empty {c : Cache} {f : Files} (h : ∀ path, c.remembers f path = none) : Served c f
  | again {c d : Cache} {f : Files} (before : Served c f) (same : d.store = c.store) : Served d f
  | convert {σ : Type} {c : Cache} {f : Files} (before : Served c f) (t : Translator σ)
      (source : SourceFile) (outline : Option Outline) (module goFile : String)
      (named : Layout.isPackageName module = true) (outside : σ) :
      Served (t.convert (.start source outline module goFile c f outside)).2.cache
        (t.convert (.start source outline module goFile c f outside)).2.files

/-- Code that was given a package name and found valid. -/
def Certified (code : String) : Prop :=
  (∃ answer module, Layout.isPackageName module = true ∧
    code = Go.retargetString answer module) ∧ (Go.checkString code).valid = true

/-- Certified code stays valid under every package name. -/
theorem Certified.valid_retargetString {code module : String} (h : Certified code)
    (hmodule : Layout.isPackageName module = true) :
    (Go.checkString (Go.retargetString code module)).valid = true := by
  obtain ⟨⟨answer, first, hfirst, rfl⟩, hvalid⟩ := h
  rw [Go.retargetString_retargetString (Go.isIdentifier_of_isPackageName hfirst).1.not_newline,
    ← Go.valid_checkString_retargetString hfirst hmodule]
  exact hvalid

/-- A cache that keeps only certified code. -/
def Sound (c : Cache) (f : Files) : Prop :=
  ∀ path e translation, c.remembers f path = some e → e.translation = some translation →
    Certified translation.output

theorem diagnostics_addErrors (r : Go.CheckResult) (errors : List String) :
    r.diagnostics <+: (Assessment.Validator.addErrors r errors).diagnostics := by
  induction errors generalizing r with
  | nil => exact List.prefix_refl _
  | cons e errors ih =>
    exact (List.prefix_append r.diagnostics _).trans (ih (r.add (Go.lineOf e) (.reported e)))

/-- A text that passes with the tools passes without them. -/
theorem valid_checkString_of_checkText {v : Assessment.Validator} {text : String}
    (h : (v.checkText text).1.valid = true) : (Go.checkString text).valid = true := by
  unfold Assessment.Validator.checkText at h
  dsimp only at h
  split at h
  · exact h
  · split at h
    · next check _ =>
      have hprefix := diagnostics_addErrors (Go.checkString text) check.errors
      rw [Go.CheckResult.valid, List.isEmpty_iff] at h ⊢
      rw [h] at hprefix
      exact List.prefix_nil.1 hprefix
    · exact h

namespace Translator

variable (t : Translator σ)

/-- The translation that an accepted answer becomes. -/
def translationOf (code : String) (n : Nat) (job : Job σ) : Cache.Translation :=
  ⟨code, job.item.module, job.item.goFile, t.service.name, n, job.cache.now⟩

theorem cache_accept (code : String) (n : Nat) (job : Job σ) :
    (t.accept code n job).cache = (job.cache.putTranslation job.files job.path
      job.item.source.digest (t.translationOf code n job)).1 := rfl

theorem files_accept (code : String) (n : Nat) (job : Job σ) :
    (t.accept code n job).files = (job.cache.putTranslation job.files job.path
      job.item.source.digest (t.translationOf code n job)).2.1 := rfl

/-- The entry that keeps a translation fits its bytes. -/
theorem fits_nextEntry {c : Cache} {f : Files} {path : Path} {digest : Digest}
    {translation : Cache.Translation} (h : translation.origin.Fits) :
    (c.nextEntry f path digest fun e => { e with translation := some translation }).Fits := by
  refine ⟨?_, ?_⟩
  · intro o ho
    cases hremembered : Cache.matching digest (c.remembers f path) with
    | none =>
      rw [Cache.nextEntry, hremembered] at ho
      cases ho
    | some e =>
      rw [Cache.nextEntry, hremembered] at ho
      have he := (Option.filter_eq_some_iff.1 hremembered).1
      exact (Cache.fits_of_remembers he).outline o ho
  · rintro _ ⟨rfl⟩
    exact h

theorem fits_maxAttempts {n : Nat} (h : n ≤ t.settings.maxAttempts) : n < 2 ^ 32 :=
  Nat.lt_of_le_of_lt h (UInt32.toNat_lt _)

/-- A conversion keeps a sound cache sound. -/
theorem sound_convert {job : Job σ} (named : Layout.isPackageName job.item.module = true)
    (h : Sound job.cache job.files) : Sound (t.convert job).2.cache (t.convert job).2.files := by
  have hends := t.convert_ends job
  generalize t.convert job = result at hends
  have hkept (last : Job σ) (kept : Keeps job last) : Sound last.cache last.files := by
    intro path e translation he
    rw [kept.files, kept.cache.remembers] at he
    exact h path e translation he
  cases hends with
  | @cancelled last kept => exact hkept last kept
  | @reused last hit kept found => exact hkept last kept
  | @fellBack last kept => exact hkept last kept
  | @accepted last code n kept checked count =>
    obtain ⟨⟨answer, hanswer⟩, hvalid⟩ := checked
    have hcertified : Certified code :=
      ⟨⟨answer, _, named, hanswer⟩, valid_checkString_of_checkText hvalid⟩
    intro path e translation he htranslation
    rw [cache_accept, files_accept] at he
    have hfits : (t.translationOf code n last).origin.Fits := t.fits_maxAttempts count.2
    rcases Cache.remembers_of_update (fits_nextEntry hfits) he with rfl | hbefore
    · cases htranslation
      exact hcertified
    · exact hkept last kept path e translation hbefore htranslation

end Translator

/-- Conversions from an empty cache lead to sound caches. -/
theorem Served.sound {c : Cache} {f : Files} (h : Served c f) : Sound c f := by
  induction h with
  | empty h =>
    intro path e translation he
    rw [h path] at he
    cases he
  | again _ same ih =>
    intro path e translation he
    rw [Cache.remembers_congr same] at he
    exact ih path e translation he
  | @convert _ c f before t source outline module goFile named outside ih =>
    let job := Job.start source outline module goFile c f outside
    have hnamed : Layout.isPackageName job.item.module = true := named
    exact t.sound_convert hnamed ih

/-- Only valid Go is kept and served.  After any conversions from an empty cache every translation
in the cache passes the check, a further conversion that ends with a skeleton or is given up stores
nothing, and one that ends with a translation from the cache ends with Go that passes the check. -/
theorem served_valid {c : Cache} {f : Files} (served : Served c f) (t : Translator σ)
    (source : SourceFile) (outline : Option Outline) (module goFile : String)
    (named : Layout.isPackageName module = true) (outside : σ) :
    let result := t.convert (.start source outline module goFile c f outside)
    (∀ path e translation, c.remembers f path = some e → e.translation = some translation →
      (Go.checkString translation.output).valid = true) ∧
    (result.1 = false ∨ result.2.item.fallback = true →
      result.2.cache.store = c.store ∧ result.2.files = f) ∧
    (result.2.item.cached = true →
      ∃ output, result.2.item.output = some output ∧ (Go.checkString output).valid = true) := by
  intro result
  have hsound := served.sound
  have hends := t.convert_ends (.start source outline module goFile c f outside)
  change t.Ends _ result at hends
  clear_value result
  refine ⟨fun path e translation he htranslation => (hsound path e translation he htranslation).2,
    ?_, ?_⟩
  · intro hnothing
    cases hends with
    | cancelled kept => exact ⟨kept.cache.store, kept.files⟩
    | reused kept found => exact ⟨kept.cache.store, kept.files⟩
    | fellBack kept => exact ⟨kept.cache.store, kept.files⟩
    | @accepted last code n kept checked count =>
      obtain ⟨_, _, _, hitem⟩ := kept.item
      have hfallback : (t.accept code n last).item.fallback = false := by
        change last.item.fallback = false
        rw [hitem]
        rfl
      rcases hnothing with hdone | hnothing
      · cases hdone
      · rw [hfallback] at hnothing
        cases hnothing
  · intro hcached
    -- Of the four ways only the one through the cache marks the file as cached.
    have hfresh {last : Job σ} (kept : Keeps (Job.start source outline module goFile c f outside) last) :
        last.item.cached = false := by
      obtain ⟨_, _, _, hitem⟩ := kept.item
      rw [hitem]
      rfl
    cases hends with
    | @cancelled last kept => cases (hfresh kept).symm.trans hcached
    | @fellBack last kept => cases (hfresh kept).symm.trans hcached
    | @accepted last code n kept checked count => cases (hfresh kept).symm.trans hcached
    | @reused last hit kept found =>
      refine ⟨_, rfl, ?_⟩
      obtain ⟨e, he, htranslation⟩ := Option.bind_eq_some_iff.1 found
      have hremembered := (Option.filter_eq_some_iff.1 he).1
      rw [kept.module]
      exact (hsound _ e hit hremembered htranslation).valid_retargetString named

/-- A translator with a programmed service and without the tools of a Go installation. -/
def Translator.programmed (p : Programmed) : Translator Programmed :=
  ⟨p.service, {}, .disabled, {}⟩

/-- A file with the given text. -/
def sourceOf (text : String) : SourceFile := ⟨⟨"/in/a.py"⟩, text.toUTF8, none⟩

/-- A file that is converted twice, the second time for another package. -/
theorem served_valid_again :
    ∃ first second : Bool × Job Programmed,
      first = (Translator.programmed .usual).convert
        (.start (sourceOf "x = 1\n") none "common" "a.go" { store := .ok .memory } {} .usual) ∧
      second = (Translator.programmed .usual).convert (.start (sourceOf "x = 1\n") none "ledger"
        "a.go" first.2.cache first.2.files .usual) ∧
      Served first.2.cache first.2.files ∧ Layout.isPackageName "ledger" = true ∧
      (∀ path e translation, first.2.cache.remembers first.2.files path = some e →
        e.translation = some translation → (Go.checkString translation.output).valid = true) ∧
      (second.2.item.cached = true →
        ∃ output, second.2.item.output = some output ∧ (Go.checkString output).valid = true) := by
  have hempty : Served { store := .ok .memory } {} :=
    .empty (Cache.remembers_eq_none_of_memory rfl {})
  have hcommon : Layout.isPackageName "common" = true := by decide
  have hledger : Layout.isPackageName "ledger" = true := by decide
  have hserved := hempty.convert (.programmed .usual) (sourceOf "x = 1\n") none "common" "a.go"
    hcommon .usual
  have hvalid := served_valid hserved (.programmed .usual) (sourceOf "x = 1\n") none "ledger"
    "a.go" hledger .usual
  with_reducible exact ⟨_, _, rfl, rfl, hserved, hledger, hvalid.1, hvalid.2.2⟩

/-! ## Names given later -/

namespace Translator

/-- A translation in the cache ends the work, under the name that the package has now. -/
theorem output_convert_of_hit (t : Translator σ) {job : Job σ} {hit : Cache.Translation}
    (hgoes : (t.isCancelled job).1 = false)
    (h : (job.cache.translation? job.files job.path job.item.source.digest).1 = some hit) :
    (t.convert job).2.item.output = some (Go.retargetString hit.output job.item.module) := by
  have hcancelled : t.isCancelled job = (false, (t.isCancelled job).2) := by rw [← hgoes]
  unfold convert
  rw [hcancelled]
  dsimp only
  have hlook : (((t.isCancelled job).2.move .cacheCheck).cache.translation?
      ((t.isCancelled job).2.move .cacheCheck).files ((t.isCancelled job).2.move .cacheCheck).path
      ((t.isCancelled job).2.move .cacheCheck).item.source.digest).1 = some hit := h
  split
  · next found cache log hfound =>
    rw [hfound] at hlook
    cases hlook
    rfl
  · next cache log hnone =>
    rw [hnone] at hlook
    cases hlook

end Translator

/-- Of two package names given one after the other only the second one is left, and a name that is
given twice is given once.  So a translation that was kept under one name comes out of the cache as
if its answer had been given the name that the package has now. -/
theorem retarget_forgets {first : String} (h : '\n' ∉ first.toList) (answer second : String) :
    Go.retargetString (Go.retargetString answer first) second = Go.retargetString answer second ∧
    Go.retargetString (Go.retargetString answer first) first = Go.retargetString answer first ∧
    ∀ {σ : Type} (t : Translator σ) (job : Job σ) (hit : Cache.Translation),
      (t.isCancelled job).1 = false →
      (job.cache.translation? job.files job.path job.item.source.digest).1 = some hit →
      hit.output = Go.retargetString answer first →
        (t.convert job).2.item.output = some (Go.retargetString answer job.item.module) := by
  refine ⟨Go.retargetString_retargetString h answer second,
    Go.retargetString_retargetString h answer first, fun t job hit hgoes hfound houtput => ?_⟩
  rw [t.output_convert_of_hit hgoes hfound, houtput, Go.retargetString_retargetString h]

/-- A translation that was kept for one package is used for another one. -/
theorem retarget_forgets_kept :
    ∃ (source : SourceFile) (cache : Cache) (files : Files) (hit : Cache.Translation),
      '\n' ∉ "common".toList ∧ hit.output = Go.retargetString "package main\n" "common" ∧
      (cache.translation? files source.path source.digest).1 = some hit ∧
      Go.retargetString (Go.retargetString "package main\n" "common") "ledger" =
        Go.retargetString "package main\n" "ledger" ∧
      ((Translator.programmed .usual).convert
          (.start source none "ledger" "a.go" cache files .usual)).2.item.output =
        some (Go.retargetString "package main\n" "ledger") := by
  have hname : '\n' ∉ "common".toList := by decide
  let source := sourceOf "x = 1\n"
  let hit : Cache.Translation := ⟨Go.retargetString "package main\n" "common",
    ⟨"common", "a.go", Programmed.name, 1, .epoch⟩⟩
  have hworking : Cache.Working { store := .ok .memory } {} := Cache.working_memory rfl {}
  have hfits : hit.origin.Fits := (by decide : 1 < 2 ^ 32)
  have hfound := hworking.translation?_putTranslation rfl source.path source.digest hit
    (Translator.fits_nextEntry hfits)
  obtain ⟨hforgets, -, hconverted⟩ := retarget_forgets hname "package main\n" "ledger"
  exact ⟨source, _, _, hit, hname, rfl, hfound, hforgets, hconverted (.programmed .usual)
    (.start source none "ledger" "a.go" _ _ .usual) hit rfl hfound rfl⟩

end Recast.Conversion
