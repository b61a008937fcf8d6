/-
  Proofs/Conversion/Translate.lean --- how the conversion of a file can end.

  A conversion is given up, ends with a translation from the cache, with one that was checked, or
  with a skeleton (`Ends`), and `convert_ends` says that there is no fifth way.  Whatever happens on
  the way there leaves the files and the store alone (`Keeps`).
-/
import Recast.Conversion.Translate
import Recast.Proofs.Cache.Store

set_option autoImplicit false

namespace Recast.Conversion

variable {σ : Type}

/-- A job that went on without anything being finished: the file keeps what it is about, and the
cache was only asked. -/
structure Keeps (a b : Job σ) : Prop where
  cache : Cache.Consulted a.cache b.cache
  files : b.files = a.files
  item : ∃ attempts failures later, b.item = { a.item with attempts, failures, later }

namespace Keeps

theorem refl (job : Job σ) : Keeps job job :=
  ⟨.refl _, rfl, job.item.attempts, job.item.failures, job.item.later, rfl⟩

theorem trans {a b c : Job σ} (h : Keeps a b) (h' : Keeps b c) : Keeps a c := by
  obtain ⟨attempts, failures, later, hitem⟩ := h.item
  obtain ⟨attempts', failures', later', hitem'⟩ := h'.item
  exact ⟨h.cache.trans h'.cache, h'.files.trans h.files, attempts', failures', later',
    by rw [hitem', hitem]⟩

theorem path {a b : Job σ} (h : Keeps a b) : b.path = a.path := by
  obtain ⟨_, _, _, hitem⟩ := h.item
  rw [Job.path, hitem]
  rfl

theorem source {a b : Job σ} (h : Keeps a b) : b.item.source = a.item.source := by
  obtain ⟨_, _, _, hitem⟩ := h.item
  rw [hitem]

theorem module {a b : Job σ} (h : Keeps a b) : b.item.module = a.item.module := by
  obtain ⟨_, _, _, hitem⟩ := h.item
  rw [hitem]

theorem move (job : Job σ) (next : Stage) : Keeps job (job.move next) :=
  ⟨.refl _, rfl, _, _, _, rfl⟩

theorem say (job : Job σ) (lines : Log) : Keeps job (job.say lines) :=
  ⟨.refl _, rfl, _, _, _, rfl⟩

theorem fail (job : Job σ) (attempt : Nat) (reason : String) : Keeps job (job.fail attempt reason) :=
  ⟨.refl _, rfl, _, _, _, rfl⟩

theorem outside (job : Job σ) (outside : σ) : Keeps job { job with outside } :=
  ⟨.refl _, rfl, _, _, _, rfl⟩

end Keeps

namespace Translator

variable (t : Translator σ)

theorem keeps_isCancelled (job : Job σ) : Keeps job (t.isCancelled job).2 := .outside job _

theorem keeps_requestWhole (prompt : Prompt) (job : Job σ) :
    Keeps job (t.requestWhole prompt job).2 := by
  unfold requestWhole
  split
  · next text outside _ =>
    exact ((Keeps.outside job outside).trans (.move _ _)).trans (.move _ _)
  · exact .outside job _

theorem keeps_readStream (chunks : List Chunk) (job : Job σ) :
    Keeps job (t.readStream chunks job).2 := by
  unfold readStream
  generalize Reply.ofChunks t.settings.earlyStop chunks = reply
  obtain ⟨taken, result⟩ := reply
  have hread := (Keeps.move job .streaming).trans (.outside _ (t.service.taken taken job.outside))
  cases result with
  | ok extraction => exact hread.trans (.move _ _)
  | error e => exact hread

theorem keeps_request (prompt : Prompt) (job : Job σ) : Keeps job (t.request prompt job).2 := by
  unfold request
  split
  · split
    · next chunks outside _ => exact (Keeps.outside job outside).trans (t.keeps_readStream _ _)
    · next outside _ => exact (Keeps.outside job outside).trans (t.keeps_requestWhole _ _)
    · exact .outside job _
  · exact t.keeps_requestWhole prompt job

/-- Code that passed the check for a job. -/
def Checked (job : Job σ) (code : String) : Prop :=
  (∃ answer, code = Go.retargetString answer job.item.module) ∧
    (t.validator.checkText code).1.valid = true

/-- How an answer is judged: it is accepted as what was checked, or nothing is finished. -/
theorem judge_cases (code : String) (n : Nat) (job : Job σ) :
    (∃ checked last, t.judge code n job = (.finished, t.accept checked n last) ∧
      Keeps job last ∧ t.Checked job checked) ∨
    (∃ last, t.judge code n job = (.failed, last) ∧ Keeps job last) := by
  unfold judge
  dsimp only
  split
  · next hvalid => exact .inl ⟨_, _, rfl, .say job _, ⟨code, rfl⟩, hvalid⟩
  · refine .inr ⟨_, rfl, ?_⟩
    exact (((Keeps.say job _).trans (.move _ _)).trans (.say _ _)).trans (.fail _ _ _)

/-- How an attempt ends: with code that was checked, or with nothing finished. -/
theorem attempt_cases (prompt : Prompt) (n : Nat) (job : Job σ) :
    (∃ checked last, t.attempt prompt n job = (.finished, t.accept checked n last) ∧
      Keeps job last ∧ t.Checked job checked) ∨
    (∃ ending last, t.attempt prompt n job = (ending, last) ∧ ending ≠ .finished ∧
      Keeps job last) := by
  have hasked : Keeps job ({ job with item := { job.item with attempts := n } }.move .requestSent) :=
    ⟨.refl _, rfl, _, _, _, rfl⟩
  have hrequest := hasked.trans (t.keeps_request prompt _)
  unfold attempt
  dsimp only
  split
  · next code answered heq =>
    rw [heq] at hrequest
    rcases t.judge_cases code n answered with ⟨checked, last, hjudge, hkeeps, hchecked⟩ |
        ⟨last, hjudge, hkeeps⟩
    · refine .inl ⟨checked, last, hjudge, hrequest.trans hkeeps, ?_⟩
      obtain ⟨⟨answer, hanswer⟩, hvalid⟩ := hchecked
      exact ⟨⟨answer, by rw [hanswer, hrequest.module]⟩, hvalid⟩
    · exact .inr ⟨_, last, hjudge, Attempt.noConfusion, hrequest.trans hkeeps⟩
  · next answered heq =>
    rw [heq] at hrequest
    exact .inr ⟨_, _, rfl, Attempt.noConfusion, hrequest⟩
  · next e answered _ heq =>
    rw [heq] at hrequest
    exact .inr ⟨_, _, rfl, Attempt.noConfusion, (hrequest.trans (.say _ _)).trans (.fail _ _ _)⟩

/-- How the conversion of a file ends. -/
inductive Ends (job : Job σ) : Bool × Job σ → Prop
  | cancelled {last : Job σ} (kept : Keeps job last) : Ends job (false, last.cancel)
  | reused {last : Job σ} {hit : Cache.Translation} (kept : Keeps job last)
      (found : (Cache.matching job.item.source.digest
        (job.cache.remembers job.files job.path)).bind (·.translation) = some hit) :
      Ends job (true, reuse hit last)
  | accepted {last : Job σ} {code : String} {n : Nat} (kept : Keeps job last)
      (checked : t.Checked job code) (count : 1 ≤ n ∧ n ≤ t.settings.maxAttempts) :
      Ends job (true, t.accept code n last)
  | fellBack {last : Job σ} (kept : Keeps job last) : Ends job (true, fallBack last)

/-- A job that begins later ends no differently. -/
theorem Ends.of_keeps {a b : Job σ} (h : Keeps a b) {result : Bool × Job σ}
    (hends : t.Ends b result) : t.Ends a result := by
  cases hends with
  | cancelled kept => exact .cancelled (h.trans kept)
  | reused kept found =>
    refine .reused (h.trans kept) ?_
    rw [← h.cache.remembers, ← h.files, ← h.path, ← h.source]
    exact found
  | accepted kept checked count =>
    obtain ⟨⟨answer, hanswer⟩, hvalid⟩ := checked
    exact .accepted (h.trans kept) ⟨⟨answer, by rw [hanswer, h.module]⟩, hvalid⟩ count
  | fellBack kept => exact .fellBack (h.trans kept)

theorem attempts_ends (prompt : Prompt) (left n : Nat) (job : Job σ) (hn : 1 ≤ n)
    (hleft : n + left = t.settings.maxAttempts + 1) :
    t.Ends job (t.attempts prompt left n job) := by
  induction left generalizing n job with
  | zero => exact .fellBack (.refl job)
  | succ left ih =>
    have hcancel := t.keeps_isCancelled job
    unfold attempts
    split
    · next asked heq =>
      rw [heq] at hcancel
      exact .cancelled hcancel
    · next asked heq =>
      rw [heq] at hcancel
      refine .of_keeps t hcancel ?_
      rcases t.attempt_cases prompt n asked with ⟨checked, last, hattempt, hkeeps, hchecked⟩ |
          ⟨ending, last, hattempt, hending, hkeeps⟩
      · rw [hattempt]
        exact .accepted hkeeps hchecked ⟨hn, by omega⟩
      · rw [hattempt]
        cases ending with
        | finished => exact absurd rfl hending
        | cancelled => exact .cancelled hkeeps
        | failed =>
          refine .of_keeps t hkeeps ?_
          dsimp only
          split
          · exact ih (n + 1) last (by omega) (by omega)
          · exact .of_keeps t (.move last .retry) (ih (n + 1) _ (by omega) (by omega))

/-- A conversion ends in one of four ways. -/
theorem convert_ends (job : Job σ) : t.Ends job (t.convert job) := by
  have hcancel := t.keeps_isCancelled job
  unfold convert
  split
  · next asked heq =>
    rw [heq] at hcancel
    exact .cancelled hcancel
  · next asked heq =>
    rw [heq] at hcancel
    refine .of_keeps t (hcancel.trans (.move asked .cacheCheck)) ?_
    generalize asked.move .cacheCheck = job
    have hfound := Cache.fst_translation? job.cache job.files job.path job.item.source.digest
    have hcache := Cache.consulted_translation? job.cache job.files job.path job.item.source.digest
    dsimp only
    split
    · next hit cache log heq =>
      rw [heq] at hfound hcache
      have hkeeps : Keeps job ({ job with cache }.say log) := ⟨hcache, rfl, _, _, _, rfl⟩
      refine .reused hkeeps ?_
      split at hfound
      · cases hfound
      · exact hfound.symm
    · next cache log heq =>
      rw [heq] at hcache
      have hkeeps : Keeps job ({ job with cache }.say log) := ⟨hcache, rfl, _, _, _, rfl⟩
      refine .of_keeps t hkeeps ?_
      generalize { job with cache }.say log = job
      unfold translate
      refine .of_keeps t ((Keeps.move job .cacheMiss).trans (.move _ .contextBuild)) ?_
      generalize (job.move .cacheMiss).move .contextBuild = job
      dsimp only
      exact .of_keeps t (.say job _) (t.attempts_ends _ _ 1 _ (Nat.le_refl 1) (Nat.add_comm 1 _))

end Translator

end Recast.Conversion
