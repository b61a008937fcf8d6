/-
  Proofs/Conversion/Attempts.lean --- the attempts of a conversion are accounted for.

  Attempts fail one after the other, each for a reason that is written down (`Failing`), until one
  succeeds or as many were made as may be.  What is counted and written down on the way says just
  that (`Counted`), and so does the entry that the store is given (`convert_accounts`).  The number
  of attempts has to fit a word: otherwise none is made (`convert_accounts_fails_wrapped`).
-/
import Recast.Proofs.Conversion.Stages

set_option autoImplicit false

namespace Recast.Conversion

variable {σ : Type}

/-! ## What is written down -/

/-- The job with an attempt begun. -/
def Job.begin (n : Nat) (job : Job σ) : Job σ :=
  { job with item := { job.item with attempts := n } }.move .requestSent

/-- What is written down about an attempt that failed. -/
def failureLine (n : Nat) (reason : String) : String := "attempt " ++ toString n ++ ": " ++ reason

/-- What is written down about attempts that failed, the first of which was number `n`. -/
def failureLines : Nat → List String → List String
  | _, [] => []
  | n, reason :: reasons => failureLine n reason :: failureLines (n + 1) reasons

/-- A job for which `n` attempts were made, with what was written down about those that failed. -/
structure Counted (n : Nat) (failures : List String) (job : Job σ) : Prop where
  attempts : job.item.attempts = n
  requests : job.item.trace.count .requestSent = n
  failures : job.item.failures = failures

namespace Counted

variable {n : Nat} {failures : List String} {job : Job σ}

theorem start (source : SourceFile) (outline : Option Outline) (module goFile : String)
    (cache : Cache) (files : Files) (outside : σ) :
    Counted 0 [] (.start source outline module goFile cache files outside) :=
  ⟨rfl, rfl, rfl⟩

theorem aside (h : Counted n failures job) {next : Job σ}
    (hattempts : next.item.attempts = job.item.attempts) (hlater : next.item.later = job.item.later)
    (hfailures : next.item.failures = job.item.failures) : Counted n failures next := by
  refine ⟨hattempts.trans h.attempts, ?_, hfailures.trans h.failures⟩
  rw [← h.requests, Item.trace, Item.trace, hlater]

theorem say (h : Counted n failures job) (lines : Log) : Counted n failures (job.say lines) :=
  h.aside rfl rfl rfl

theorem outside (h : Counted n failures job) (outside : σ) :
    Counted n failures { job with outside } :=
  h.aside rfl rfl rfl

theorem move (h : Counted n failures job) {next : Stage} (hnext : next ≠ .requestSent) :
    Counted n failures (job.move next) := by
  refine ⟨h.attempts, ?_, h.failures⟩
  rw [Job.item_move, Item.trace_move, List.count_append, h.requests, List.count_singleton,
    if_neg (by simpa using hnext), Nat.add_zero]

theorem begin (h : Counted n failures job) : Counted (n + 1) failures (job.begin (n + 1)) := by
  refine ⟨rfl, ?_, h.failures⟩
  have hbefore : ({ job.item with attempts := n + 1 } : Item).trace.count .requestSent = n :=
    h.requests
  rw [Job.begin, Job.item_move, Item.trace_move, List.count_append, hbefore,
    List.count_singleton_self]

theorem fail (h : Counted n failures job) (reason : String) :
    Counted n (failures ++ [failureLine n reason]) (job.fail n reason) := by
  refine ⟨h.attempts, h.requests, ?_⟩
  rw [← h.failures]
  rfl

end Counted

namespace Translator

variable (t : Translator σ) (prompt : Prompt) {n : Nat} {failures : List String} {job : Job σ}

theorem counted_requestWhole (h : Counted n failures job) :
    Counted n failures (t.requestWhole prompt job).2 := by
  unfold requestWhole
  split
  · next text outside _ =>
    exact ((h.outside outside).move Stage.noConfusion).move Stage.noConfusion
  · exact h.outside _

theorem counted_readStream (h : Counted n failures job) (chunks : List Chunk) :
    Counted n failures (t.readStream chunks job).2 := by
  unfold readStream
  generalize Reply.ofChunks t.settings.earlyStop chunks = reply
  obtain ⟨taken, result⟩ := reply
  have hmoved : Counted n failures (job.move .streaming) := h.move Stage.noConfusion
  have hread := hmoved.outside (t.service.taken taken job.outside)
  cases result with
  | ok extraction => exact hread.move Stage.noConfusion
  | error e => exact hread

/-- A request counts nothing. -/
theorem counted_request (h : Counted n failures job) :
    Counted n failures (t.request prompt job).2 := by
  unfold request
  split
  · split
    · next chunks outside _ => exact t.counted_readStream (h.outside outside) chunks
    · next outside _ => exact t.counted_requestWhole prompt (h.outside outside)
    · exact h.outside _
  · exact t.counted_requestWhole prompt h

theorem counted_accept (h : Counted n failures job) (code : String) (number : Nat) :
    Counted n failures (t.accept code number job) := by
  have hvalid : Counted n failures (job.move .valid) := h.move Stage.noConfusion
  unfold accept
  refine Counted.move ?_ Stage.noConfusion
  exact hvalid.aside rfl rfl rfl

theorem counted_fallBack (h : Counted n failures job) : Counted n failures (fallBack job) := by
  have hmoved : Counted n failures (job.move .templateFallback) := h.move Stage.noConfusion
  unfold fallBack
  refine Counted.move ?_ Stage.noConfusion
  exact hmoved.aside rfl rfl rfl

/-! ## Attempts -/

/-- Why an attempt fails: it gets no answer, though nobody gave up the work, or one that is not
valid. -/
inductive Fails (n : Nat) (job : Job σ) : String → Prop
  | unanswered {e : InferenceError} (request : (t.request prompt (job.begin n)).1 = .error e)
      (retryable : e.isRetryable = true) : Fails n job e.message
  | invalid {answer : String} (request : (t.request prompt (job.begin n)).1 = .ok answer)
      (check : (t.validator.checkText (Go.retargetString answer job.item.module)).1.valid = false) :
      Fails n job (reason (t.validator.checkText (Go.retargetString answer job.item.module)).1)

/-- What an attempt succeeds with: an answer, under the name of its package, that is valid. -/
structure Succeeds (n : Nat) (job : Job σ) (code : String) : Prop where
  request : ∃ answer, (t.request prompt (job.begin n)).1 = .ok answer ∧
    code = Go.retargetString answer job.item.module
  check : (t.validator.checkText code).1.valid = true

/-- How an attempt ends, and what is written down about it. -/
inductive Outcome (n : Nat) (failures : List String) (job : Job σ) : Attempt × Job σ → Prop
  | failed {reason : String} {last : Job σ} (why : t.Fails prompt (n + 1) job reason)
      (kept : Keeps job last)
      (counted : Counted (n + 1) (failures ++ [failureLine (n + 1) reason]) last) :
      Outcome n failures job (.failed, last)
  | finished {code : String} {last : Job σ} (how : t.Succeeds prompt (n + 1) job code)
      (kept : Keeps job last) (counted : Counted (n + 1) failures last) :
      Outcome n failures job (.finished, t.accept code (n + 1) last)
  | cancelled {last : Job σ} : Outcome n failures job (.cancelled, last)

theorem outcome_judge {answer : String} {answered : Job σ}
    (hanswer : (t.request prompt (job.begin (n + 1))).1 = .ok answer) (hkept : Keeps job answered)
    (hcounted : Counted (n + 1) failures answered) :
    t.Outcome prompt n failures job (t.judge answer (n + 1) answered) := by
  unfold judge
  rw [hkept.module]
  generalize hcode : Go.retargetString answer job.item.module = code
  dsimp only
  split
  · next hvalid =>
    exact .finished ⟨⟨answer, hanswer, hcode.symm⟩, hvalid⟩ (hkept.trans (.say _ _))
      (hcounted.say _)
  · next hvalid =>
    rw [Bool.not_eq_true, ← hcode] at hvalid
    rw [← hcode]
    refine .failed (.invalid hanswer hvalid) ?_
      ((((hcounted.say _).move Stage.noConfusion).say _).fail _)
    exact hkept.trans ((((Keeps.say _ _).trans (.move _ _)).trans (.say _ _)).trans (.fail _ _ _))

theorem outcome_attempt (h : Counted n failures job) :
    t.Outcome prompt n failures job (t.attempt prompt (n + 1) job) := by
  have hbegun : Keeps job (job.begin (n + 1)) := ⟨.refl _, rfl, _, _, _, rfl⟩
  have hkept := hbegun.trans (t.keeps_request prompt (job.begin (n + 1)))
  have hcounted := t.counted_request prompt h.begin
  have hunanswered {e : InferenceError} (hne : e ≠ .cancelled)
      (hrequest : (t.request prompt (job.begin (n + 1))).1 = .error e) :
      t.Fails prompt (n + 1) job e.message :=
    .unanswered hrequest (by simpa [InferenceError.isRetryable] using hne)
  have hanswered (answer : String)
      (hrequest : (t.request prompt (job.begin (n + 1))).1 = .ok answer) :=
    t.outcome_judge prompt hrequest hkept hcounted
  unfold attempt
  rw [← Job.begin]
  dsimp only
  generalize t.request prompt (job.begin (n + 1)) = requested at *
  obtain ⟨answer, last⟩ := requested
  split
  · next code last heq =>
    cases heq
    exact hanswered code rfl
  · exact .cancelled
  · next e last hne heq =>
    cases heq
    refine .failed (hunanswered hne rfl) ?_ ((hcounted.say _).fail _)
    exact hkept.trans ((Keeps.say _ _).trans (.fail _ _ _))

/-- Attempts that fail one after the other, each with the reason why it does.  `n` attempts were
made before them. -/
inductive Failing : Nat → Job σ → List String → Job σ → Prop
  | none (n : Nat) (job : Job σ) : Failing n job [] job
  | attempt {n : Nat} {job asked answered last : Job σ} {reason : String} {reasons : List String}
      (goes : t.isCancelled job = (false, asked)) (why : t.Fails prompt (n + 1) asked reason)
      (ended : t.attempt prompt (n + 1) asked = (.failed, answered))
      (rest : Failing (n + 1)
        (if n + 1 = t.settings.maxAttempts then answered else answered.move .retry) reasons last) :
      Failing n job (reason :: reasons) last

/-- How attempts of a job end that are not given up, of which `n` were made before. -/
inductive Concludes (n : Nat) (failures : List String) (job : Job σ) : Job σ → Prop
  | exhausted {reasons : List String} {last : Job σ} (failing : t.Failing prompt n job reasons last)
      (all : n + reasons.length = t.settings.maxAttempts) (kept : Keeps job last)
      (counted : Counted (n + reasons.length) (failures ++ failureLines (n + 1) reasons) last) :
      Concludes n failures job (fallBack last)
  | succeeded {reasons : List String} {last asked answered : Job σ} {code : String}
      (failing : t.Failing prompt n job reasons last)
      (some : n + reasons.length < t.settings.maxAttempts)
      (goes : t.isCancelled last = (false, asked))
      (how : t.Succeeds prompt (n + reasons.length + 1) asked code) (kept : Keeps job answered)
      (counted : Counted (n + reasons.length + 1) (failures ++ failureLines (n + 1) reasons)
        answered) :
      Concludes n failures job (t.accept code (n + reasons.length + 1) answered)

/-- The first attempt may succeed. -/
theorem Concludes.atOnce {n : Nat} {failures : List String} {job asked answered : Job σ}
    {code : String} (some : n < t.settings.maxAttempts) (goes : t.isCancelled job = (false, asked))
    (how : t.Succeeds prompt (n + 1) asked code) (kept : Keeps job answered)
    (counted : Counted (n + 1) failures answered) :
    t.Concludes prompt n failures job (t.accept code (n + 1) answered) := by
  have hlines : failures ++ failureLines (n + 1) [] = failures := by
    rw [failureLines, List.append_nil]
  have hdone := @Concludes.succeeded σ t prompt n failures job [] job asked answered code
    (.none n job)
  rw [hlines, List.length_nil, Nat.add_zero] at hdone
  exact hdone some goes how kept counted

/-- An attempt that failed comes before those that follow it. -/
theorem Concludes.after {n : Nat} {failures : List String} {job asked answered result : Job σ}
    {reason : String} (goes : t.isCancelled job = (false, asked))
    (why : t.Fails prompt (n + 1) asked reason)
    (ended : t.attempt prompt (n + 1) asked = (.failed, answered)) (kept : Keeps job answered)
    (h : t.Concludes prompt (n + 1) (failures ++ [failureLine (n + 1) reason])
      (if n + 1 = t.settings.maxAttempts then answered else answered.move .retry) result) :
    t.Concludes prompt n failures job result := by
  have hnext : Keeps job
      (if n + 1 = t.settings.maxAttempts then answered else answered.move .retry) := by
    split
    · exact kept
    · exact kept.trans (.move _ _)
  have hlines (reasons : List String) :
      failures ++ [failureLine (n + 1) reason] ++ failureLines (n + 1 + 1) reasons =
        failures ++ failureLines (n + 1) (reason :: reasons) := by
    rw [List.append_assoc]
    rfl
  have hlength (reasons : List String) :
      n + 1 + reasons.length = n + (reason :: reasons).length := by
    rw [List.length_cons]
    omega
  cases h with
  | exhausted failing all kept counted =>
    rw [hlines] at counted
    rw [hlength] at all counted
    exact .exhausted (.attempt goes why ended failing) all (hnext.trans kept) counted
  | succeeded failing some goes' how kept counted =>
    rw [hlines] at counted
    rw [hlength] at some how counted ⊢
    exact .succeeded (.attempt goes why ended failing) some goes' how (hnext.trans kept) counted

/-- Attempts are counted one by one, the reasons of those that fail written down, until one succeeds
or none is left. -/
theorem concludes_attempts (left n : Nat) {failures : List String} {job : Job σ}
    (h : Counted n failures job) (hleft : n + left = t.settings.maxAttempts)
    (hfinished : (t.attempts prompt left (n + 1) job).1 = true) :
    t.Concludes prompt n failures job (t.attempts prompt left (n + 1) job).2 := by
  induction left generalizing n failures job with
  | zero =>
    have hcounted : Counted (n + ([] : List String).length)
        (failures ++ failureLines (n + 1) []) job := by
      rw [failureLines, List.append_nil]
      exact h
    exact .exhausted (.none n job) hleft (.refl job) hcounted
  | succ left ih =>
    have hkept := t.keeps_isCancelled job
    have hcounted : Counted n failures (t.isCancelled job).2 := h.outside _
    unfold attempts at hfinished ⊢
    generalize hasked : t.isCancelled job = answer at *
    obtain ⟨cancelled, asked⟩ := answer
    cases cancelled with
    | true => cases hfinished
    | false =>
      have houtcome := t.outcome_attempt prompt hcounted
      dsimp only at hfinished houtcome ⊢
      generalize hattempt : t.attempt prompt (n + 1) asked = ending at *
      cases houtcome with
      | cancelled => cases hfinished
      | @finished code last how kept counted =>
        have hsome : n < t.settings.maxAttempts := by omega
        exact .atOnce t prompt hsome hasked how (hkept.trans kept) counted
      | @failed reason answered why kept counted =>
        have hlast : left = 0 ↔ n + 1 = t.settings.maxAttempts := by omega
        dsimp only at hfinished ⊢
        simp only [hlast] at hfinished ⊢
        have hnext : Counted (n + 1) (failures ++ [failureLine (n + 1) reason])
            (if n + 1 = t.settings.maxAttempts then answered else answered.move .retry) := by
          split
          · exact counted
          · exact counted.move Stage.noConfusion
        have hrest := ih (n + 1) hnext (by omega) hfinished
        exact .after t prompt hasked why hattempt (hkept.trans kept) hrest

/-! ## Conversions -/

theorem concludes_translate {job : Job σ} (h : Counted 0 [] job)
    (finished : (t.translate job).1 = true) :
    ∃ first, Keeps job first ∧
      t.Concludes (t.prompt first.item).1 0 [] first (t.translate job).2 := by
  let built := (job.move .cacheMiss).move .contextBuild
  have hkept : Keeps job (built.say (t.prompt built.item).2) :=
    ((Keeps.move job .cacheMiss).trans (.move _ .contextBuild)).trans (.say _ _)
  have hcounted : Counted 0 [] (built.say (t.prompt built.item).2) :=
    ((h.move Stage.noConfusion).move Stage.noConfusion).say _
  exact ⟨_, hkept, t.concludes_attempts _ _ 0 hcounted (Nat.zero_add _) finished⟩

/-- A conversion that finds nothing in the cache and is not given up makes attempts. -/
theorem concludes_convert {job : Job σ} (h : Counted 0 [] job)
    (missed : (job.cache.translation? job.files job.path job.item.source.digest).1 = none)
    (finished : (t.convert job).1 = true) :
    ∃ first, Keeps job first ∧
      t.Concludes (t.prompt first.item).1 0 [] first (t.convert job).2 := by
  have hkept := t.keeps_isCancelled job
  have hcounted : Counted 0 [] (t.isCancelled job).2 := h.outside _
  have hlook : ((t.isCancelled job).2.cache.translation? (t.isCancelled job).2.files
      (t.isCancelled job).2.path (t.isCancelled job).2.item.source.digest).1 = none := missed
  unfold convert at finished ⊢
  generalize t.isCancelled job = answer at *
  obtain ⟨cancelled, asked⟩ := answer
  cases cancelled with
  | true => cases finished
  | false =>
    have hchecked := hkept.trans (.move asked .cacheCheck)
    have hmoved : Counted 0 [] (asked.move .cacheCheck) := hcounted.move Stage.noConfusion
    change ((asked.move .cacheCheck).cache.translation? (asked.move .cacheCheck).files
      (asked.move .cacheCheck).path (asked.move .cacheCheck).item.source.digest).1 = none at hlook
    dsimp only at finished ⊢
    generalize asked.move .cacheCheck = checked at *
    have hcached := Cache.consulted_translation? checked.cache checked.files checked.path
      checked.item.source.digest
    generalize checked.cache.translation? checked.files checked.path checked.item.source.digest =
      found at *
    obtain ⟨hit, cache, log⟩ := found
    cases hlook
    have hmissed : Keeps checked ({ checked with cache }.say log) :=
      ⟨hcached, rfl, _, _, _, rfl⟩
    have hcounted : Counted 0 [] ({ checked with cache }.say log) := hmoved.aside rfl rfl rfl
    obtain ⟨first, hfirst, hconcludes⟩ := t.concludes_translate hcounted finished
    exact ⟨first, (hchecked.trans hmissed).trans hfirst, hconcludes⟩

end Translator

/-- A job that ended with code that attempt `n` gave: the store was offered an entry with the code
and with that number. -/
def Recorded (cache : Cache) (files : Files) (n : Nat) (code : String) (job : Job σ) : Prop :=
  ∃ e translation, e.digest = job.item.source.digest ∧ e.translation = some translation ∧
    translation.output = code ∧ translation.origin.attempts = n ∧
    Cache.Offered cache files job.path e job.cache job.files ∧
    (Cache.Working cache files → job.cache.remembers job.files job.path = some e)

theorem Translator.recorded_accept (t : Translator σ) {n : Nat}
    (hn : n ≤ t.settings.maxAttempts) {first last : Job σ} (kept : Keeps first last)
    (code : String) : Recorded first.cache first.files n code (t.accept code n last) := by
  have hpath : (t.accept code n last).path = last.path := rfl
  have hsource : (t.accept code n last).item.source = last.item.source := rfl
  let change (e : Cache.Entry) : Cache.Entry :=
    { e with translation := some (t.translationOf code n last) }
  have hoffered := Cache.offered_update last.cache last.files last.path last.item.source.digest
    change
  have hfits : (last.cache.nextEntry last.files last.path last.item.source.digest change).Fits :=
    fits_nextEntry (t.fits_maxAttempts hn)
  have hdigest : (last.cache.nextEntry last.files last.path last.item.source.digest change).digest =
      last.item.source.digest := Cache.digest_matching _ _
  have htranslation :
      (last.cache.nextEntry last.files last.path last.item.source.digest change).translation =
        some (t.translationOf code n last) := rfl
  rw [Recorded, hpath, hsource, cache_accept, files_accept, Cache.putTranslation, ← kept.files]
  generalize last.cache.nextEntry last.files last.path last.item.source.digest change = e at *
  have hfirst : Cache.Offered first.cache last.files last.path e _ _ :=
    fun s hs => hoffered s (kept.cache.store.trans hs)
  exact ⟨e, t.translationOf code n last, hdigest, htranslation, rfl, rfl, hfirst,
    fun hworking => hworking.remembers_of_offered hfits hfirst⟩

/-- Attempts are accounted for.  A conversion that finds nothing in the cache and is not given up
makes at least one attempt and at most one more than may be repeated.  It counts them, and writes
down one by one why they fail.  It ends with a skeleton when all of them fail, and otherwise with
the code of the last one, which is the only one that succeeds and whose number goes into the cache.
The number of attempts has to fit a word. -/
theorem convert_accounts (t : Translator σ) (hretries : t.settings.maxRetries < 4294967295)
    (source : SourceFile) (outline : Option Outline) (module goFile : String) (cache : Cache)
    (files : Files) (outside : σ)
    (missed : (cache.translation? files source.path source.digest).1 = none)
    (finished : (t.convert (.start source outline module goFile cache files outside)).1 = true) :
    let most := t.settings.maxRetries.toNat + 1
    let start := Job.start source outline module goFile cache files outside
    let job := (t.convert start).2
    (1 ≤ job.item.attempts ∧ job.item.attempts ≤ most) ∧
    job.item.trace.count .requestSent = job.item.attempts ∧
    ∃ first reasons last, Keeps start first ∧
      t.Failing (t.prompt first.item).1 0 first reasons last ∧
      job.item.failures = failureLines 1 reasons ∧
      (job.item.fallback = true ↔ reasons.length = most) ∧
      (job.item.fallback = true → job.item.attempts = reasons.length) ∧
      (job.item.fallback = false → job.item.attempts = reasons.length + 1 ∧
        ∃ asked code, t.isCancelled last = (false, asked) ∧
          t.Succeeds (t.prompt first.item).1 (reasons.length + 1) asked code ∧
          job.item.output = some code ∧ job.path = source.path ∧
          Recorded cache files job.item.attempts code job) := by
  intro most start job
  have hmost : t.settings.maxAttempts = most := by
    have hword : t.settings.maxRetries.toNat < 4294967295 := UInt32.lt_iff_toNat_lt.1 hretries
    rw [Settings.maxAttempts, UInt32.toNat_add]
    change (t.settings.maxRetries.toNat + 1) % 4294967296 = t.settings.maxRetries.toNat + 1
    omega
  obtain ⟨first, hfirst, hconcludes⟩ := t.concludes_convert
    (.start source outline module goFile cache files outside) missed finished
  change t.Concludes _ 0 [] first job at hconcludes
  clear_value job
  cases hconcludes with
  | @exhausted reasons last failing all kept counted =>
    rw [Nat.zero_add, hmost] at all
    rw [Nat.zero_add, List.nil_append] at counted
    obtain ⟨hattempts, hrequests, hfailures⟩ := Translator.counted_fallBack counted
    have hfallback : (Translator.fallBack last).item.fallback = true := rfl
    refine ⟨⟨by omega, by omega⟩, hrequests.trans hattempts.symm, first, reasons, last, hfirst,
      failing, hfailures, iff_of_true rfl all, fun _ => hattempts, fun hnot => ?_⟩
    rw [hfallback] at hnot
    cases hnot
  | @succeeded reasons last asked answered code failing some goes how kept counted =>
    rw [Nat.zero_add, hmost] at some
    rw [Nat.zero_add] at how
    rw [Nat.zero_add, List.nil_append] at counted
    rw [Nat.zero_add]
    have hkept := hfirst.trans kept
    obtain ⟨hattempts, hrequests, hfailures⟩ :=
      t.counted_accept counted code (reasons.length + 1)
    have hfallback : (t.accept code (reasons.length + 1) answered).item.fallback = false := by
      obtain ⟨_, _, _, hitem⟩ := hkept.item
      change answered.item.fallback = false
      rw [hitem]
      rfl
    have hfew : reasons.length + 1 ≤ t.settings.maxAttempts := by omega
    have hrecorded := t.recorded_accept hfew hkept code
    refine ⟨⟨by omega, by omega⟩, hrequests.trans hattempts.symm, first, reasons, last, hfirst,
      failing, hfailures, iff_of_false ?_ (by omega), fun hskeleton => ?_, fun _ => ⟨hattempts,
        asked, code, goes, how, rfl, hkept.path, hattempts.symm ▸ hrecorded⟩⟩
    · rw [hfallback]
      exact Bool.false_ne_true
    · rw [hfallback] at hskeleton
      cases hskeleton

/-- A service whose first answer is no Go is asked twice. -/
theorem convert_accounts_hesitating :
    let t : Translator Programmed := .programmed hesitating
    let source := sourceOf "x = 1\n"
    let start := Job.start source none "common" "a.go" { store := .ok .memory } {} hesitating
    ∃ job, (t.convert start).2 = job ∧ t.settings.maxRetries < 4294967295 ∧
      (Cache.translation? { store := .ok .memory } {} source.path source.digest).1 = none ∧
      (t.convert start).1 = true ∧ job.item.attempts = 2 ∧
      ∃ first reason last, Keeps start first ∧
        t.Failing (t.prompt first.item).1 0 first [reason] last ∧
        job.item.failures = failureLines 1 [reason] ∧
        ∃ code, job.item.output = some code ∧ Recorded { store := .ok .memory } {} 2 code job := by
  intro t source start
  have hretries : t.settings.maxRetries < 4294967295 := by decide
  have hmissed : (Cache.translation? { store := .ok .memory } {} source.path source.digest).1 =
      none := by decide +kernel
  have hfinished : (t.convert start).1 = true := by decide +kernel
  have hattempts : (t.convert start).2.item.attempts = 2 := by decide +kernel
  have hfallback : (t.convert start).2.item.fallback = false := by decide +kernel
  have haccounts := convert_accounts t hretries source none "common" "a.go"
    { store := .ok .memory } {} hesitating hmissed hfinished
  dsimp only at haccounts
  generalize hjob : (t.convert start).2 = job at *
  obtain ⟨-, -, first, reasons, last, hfirst, hfailing, hfailures, -, -, hdone⟩ := haccounts
  obtain ⟨hlength, asked, code, -, -, houtput, -, hrecorded⟩ := hdone hfallback
  rw [hattempts] at hlength hrecorded
  obtain ⟨reason, rfl⟩ := List.length_eq_one_iff.1 (Nat.succ.inj hlength).symm
  with_reducible exact ⟨job, rfl, hretries, hmissed, hfinished, hattempts, first, reason, last,
    hfirst, hfailing, hfailures, code, houtput, hrecorded⟩

/-- When a request may be repeated as often as a word can say, the number of attempts does not fit
one, and none is made. -/
theorem convert_accounts_fails_wrapped :
    let t : Translator Programmed :=
      { Translator.programmed .usual with settings := { maxRetries := 4294967295 } }
    let source := sourceOf "x = 1\n"
    let result := t.convert (.start source none "common" "a.go" { store := .ok .memory } {} .usual)
    (Cache.translation? { store := .ok .memory } {} source.path source.digest).1 = none ∧
      result.1 = true ∧ ¬1 ≤ result.2.item.attempts ∧
      ¬(result.2.item.fallback = true ↔
        result.2.item.failures.length = t.settings.maxRetries.toNat + 1) := by
  decide +kernel

end Recast.Conversion
