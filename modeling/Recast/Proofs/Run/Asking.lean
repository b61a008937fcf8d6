/-
  Proofs/Run/Asking.lean --- what a run asks the service.

  A service that writes down what it is asked counts the prompts.  The work on a file asks for that
  file alone, and at all only if the translation is not taken from the cache (`Work.asks_process`); so
  whatever the order of the steps of the workers is, the prompts of a run are those of its files.
-/
import Mathlib.Algebra.Order.Group.Multiset
import Recast.Proofs.Conversion.Requests
import Recast.Proofs.Run.Counting

set_option autoImplicit false

namespace Recast.Run

open Conversion (Item Job Stage Translator)

variable {σ : Type}

/-- The prompts that were written down, in no order. -/
def Shared.prompts (s : Shared (σ × List Prompt)) : Multiset Prompt := s.outside.2

theorem prompts_of_outside {s s' : Shared (σ × List Prompt)} (h : s'.outside = s.outside) :
    s'.prompts = s.prompts := by
  rw [Shared.prompts, h, Shared.prompts]

/-- A file that went on with more stages behind it. -/
structure Proceeds (item later : Item) : Prop where
  source : later.source = item.source
  outline : later.outline = item.outline
  module : later.module = item.module
  cached : later.cached = item.cached
  stages : ∃ stages, later.later = stages ++ item.later

namespace Proceeds

variable {item later last : Item}

theorem refl (item : Item) : Proceeds item item := ⟨rfl, rfl, rfl, rfl, [], rfl⟩

theorem of_eq (h : later = item) : Proceeds item later := by
  rw [h]
  exact .refl item

theorem trans (h : Proceeds item later) (h' : Proceeds later last) : Proceeds item last := by
  obtain ⟨stages, hstages⟩ := h.stages
  obtain ⟨stages', hstages'⟩ := h'.stages
  refine ⟨h'.source.trans h.source, h'.outline.trans h.outline, h'.module.trans h.module,
    h'.cached.trans h.cached, stages' ++ stages, ?_⟩
  rw [hstages', hstages, List.append_assoc]

theorem move (h : Proceeds item later) (next : Stage) : Proceeds item (later.move next) :=
  h.trans ⟨rfl, rfl, rfl, rfl, [next], rfl⟩

theorem mem (h : Proceeds item later) {stage : Stage} (hstage : stage ∈ item.later) :
    stage ∈ later.later := by
  obtain ⟨stages, hstages⟩ := h.stages
  rw [hstages]
  exact List.mem_append_right _ hstage

end Proceeds

namespace Work

section Conversion

variable (t : Translator (σ × List Prompt)) {service : Service σ} (h : t.service = service.recorded)

include h

theorem asks_isCancelled (hgoes : service.GoesOn) (job : Job (σ × List Prompt))
    (added : Multiset Prompt) :
    (onJob t.isCancelled job).Adds Shared.prompts
      (fun r m => r.1 = false ∧ r.2.item = job.item ∧ m = added) added := by
  refine .act fun s => ⟨0, ?_, ?_, rfl, add_zero added⟩
  · change (((t.service.cancelled s.outside).2.2 : List Prompt) : Multiset Prompt) = _
    rw [h, add_zero]
    rfl
  · change (t.service.cancelled s.outside).1 = false
    rw [h]
    exact hgoes s.outside.1

/-- A number of requests for a prompt, one at least. -/
def Sent (prompt : Prompt) (item : Item) (added : Multiset Prompt) (later : Item)
    (m : Multiset Prompt) : Prop :=
  Proceeds item later ∧ ∃ n, m = added + Multiset.replicate (n + 1) prompt

omit h in
theorem prompts_concat (asked : List Prompt) (prompt : Prompt) :
    ((asked ++ [prompt] : List Prompt) : Multiset Prompt) =
      (asked : Multiset Prompt) + Multiset.replicate 1 prompt := by
  rw [← Multiset.coe_add]
  rfl

theorem asks_requestWhole (prompt : Prompt) (job : Job (σ × List Prompt))
    (added : Multiset Prompt) :
    (requestWhole t prompt job).Adds Shared.prompts
      (fun r m => Sent prompt job.item added r.2.item m) added := by
  have hasked : (onJob (complete t prompt) job).Adds Shared.prompts
      (fun r m => Sent prompt job.item added r.2.item m) added := by
    refine .act fun s => ⟨Multiset.replicate 1 prompt, ?_, .refl _, 0, rfl⟩
    change (((t.service.complete prompt s.outside).2.2 : List Prompt) : Multiset Prompt) = _
    rw [h]
    exact prompts_concat s.outside.2 prompt
  refine hasked.bind ?_
  rintro ⟨answer, asked⟩ m ⟨hproceeds, hcount⟩
  cases answer with
  | ok text => exact .pure ⟨(hproceeds.move .complete).move .extracted, hcount⟩
  | error e => exact .pure ⟨hproceeds, hcount⟩

theorem quiet_readStream (chunks : List Chunk) (job : Job (σ × List Prompt)) :
    (readStream t chunks job).Quiet Shared.prompts fun r => Proceeds job.item r.2.item := by
  unfold readStream
  generalize Reply.ofChunks t.settings.earlyStop chunks = reply
  obtain ⟨read, result⟩ := reply
  have htold : (onJob (taken t read) (job.move .streaming)).Quiet Shared.prompts fun r =>
      Proceeds job.item r.2.item := by
    refine .act fun s => ⟨?_, (Proceeds.refl _).move .streaming⟩
    change (((t.service.taken read s.outside).2 : List Prompt) : Multiset Prompt) = _
    rw [h]
    rfl
  refine htold.bind ?_
  rintro ⟨_, told⟩ hproceeds
  cases result with
  | ok extraction => exact .pure (hproceeds.move .extracted)
  | error e => exact .pure hproceeds

/-- A request asks once, or twice if the service turns out not to stream. -/
theorem asks_request (prompt : Prompt) (job : Job (σ × List Prompt)) (added : Multiset Prompt) :
    (request t prompt job).Adds Shared.prompts
      (fun r m => Sent prompt job.item added r.2.item m) added := by
  unfold request
  split
  · have hasked : (onJob (stream t prompt) job).Adds Shared.prompts
        (fun r m => r.2.item = job.item ∧ m = added + Multiset.replicate 1 prompt) added := by
      refine .act fun s => ⟨Multiset.replicate 1 prompt, ?_, rfl, rfl⟩
      change (((t.service.stream prompt s.outside).2.2 : List Prompt) : Multiset Prompt) = _
      rw [h]
      exact prompts_concat s.outside.2 prompt
    refine hasked.bind ?_
    rintro ⟨answer, asked⟩ m ⟨hitem, rfl⟩
    dsimp only at hitem
    cases answer with
    | ok chunks =>
      refine .of_quiet (quiet_readStream t h chunks asked) fun r hproceeds => ?_
      exact ⟨(Proceeds.of_eq hitem).trans hproceeds, 0, rfl⟩
    | error e =>
      cases e with
      | streamingUnsupported =>
        refine (asks_requestWhole t h prompt asked _).mono ?_
        rintro r m ⟨hproceeds, n, rfl⟩
        refine ⟨(Proceeds.of_eq hitem).trans hproceeds, 1 + n, ?_⟩
        rw [add_assoc, ← Multiset.replicate_add, Nat.add_assoc]
      | timeout | cancelled | service | malformed => exact .pure ⟨.of_eq hitem, 0, rfl⟩
  · exact asks_requestWhole t h prompt job added

omit h in
theorem quiet_accept (code : String) (n : Nat) (job : Job (σ × List Prompt)) :
    (accept t code n job).Quiet Shared.prompts fun accepted => Proceeds job.item accepted.item := by
  have hloaded : (onJob loadEntry (job.move .valid)).Quiet Shared.prompts fun r =>
      Proceeds job.item r.2.item :=
    .act fun _ => ⟨rfl, (Proceeds.refl _).move .valid⟩
  refine hloaded.bind ?_
  rintro ⟨⟨entry, now⟩, loaded⟩ hproceeds
  have hkept : (onJob (keepEntry (entryWith t code n loaded.item entry now)) loaded).Quiet
      Shared.prompts fun r => r.2.item = loaded.item :=
    .act fun _ => ⟨rfl, rfl⟩
  refine hkept.bind ?_
  rintro ⟨_, kept⟩ hitem
  exact .pure (hproceeds.trans ((Proceeds.of_eq hitem).trans ⟨rfl, rfl, rfl, rfl, [.done], rfl⟩))

omit h in
theorem quiet_judge (code : String) (n : Nat) (job : Job (σ × List Prompt)) :
    (judge t code n job).Quiet Shared.prompts fun r => Proceeds job.item r.2.item := by
  unfold judge
  dsimp only
  split
  · refine (quiet_accept t _ n (job.say _)).bind fun accepted haccepted => ?_
    exact .pure haccepted
  · exact .pure ⟨rfl, rfl, rfl, rfl, [.invalid], rfl⟩

/-- An attempt makes a request. -/
theorem asks_attempt (prompt : Prompt) (n : Nat) (job : Job (σ × List Prompt))
    (added : Multiset Prompt) :
    (attempt t prompt n job).Adds Shared.prompts
      (fun r m => Sent prompt job.item added r.2.item m ∧ .requestSent ∈ r.2.item.later) added := by
  have hsent : Proceeds job.item ({ job.item with attempts := n }.move .requestSent) :=
    ⟨rfl, rfl, rfl, rfl, [.requestSent], rfl⟩
  refine (asks_request t h prompt _ added).bind ?_
  rintro ⟨answer, asked⟩ m ⟨hproceeds, hcount⟩
  have hmem : Stage.requestSent ∈ asked.item.later := hproceeds.mem (.head _)
  have hproceeds := hsent.trans hproceeds
  cases answer with
  | ok code =>
    refine .of_quiet (quiet_judge t code n asked) fun r hjudged => ?_
    exact ⟨⟨hproceeds.trans hjudged, hcount⟩, hjudged.mem hmem⟩
  | error e =>
    cases e with
    | cancelled => exact .pure ⟨⟨hproceeds, hcount⟩, hmem⟩
    | timeout | service | malformed | streamingUnsupported =>
      exact .pure ⟨⟨hproceeds.trans ⟨rfl, rfl, rfl, rfl, [], rfl⟩, hcount⟩, hmem⟩

/-- Attempts make requests, at least one unless there are no attempts. -/
theorem asks_attempts (hgoes : service.GoesOn) (prompt : Prompt) (left n : Nat)
    (job : Job (σ × List Prompt)) (added : Multiset Prompt) :
    (attempts t prompt left n job).Adds Shared.prompts
      (fun r m => (∃ k, m = added + Multiset.replicate k prompt) ∧ Proceeds job.item r.2.item ∧
        (0 < left → Sent prompt job.item added r.2.item m ∧ .requestSent ∈ r.2.item.later))
      added := by
  induction left generalizing n job added with
  | zero =>
    exact .pure ⟨⟨0, (add_zero _).symm⟩, ⟨rfl, rfl, rfl, rfl, [.done, .templateFallback], rfl⟩,
      fun hleft => absurd hleft (Nat.lt_irrefl 0)⟩
  | succ left ih =>
    refine (asks_isCancelled t h hgoes job added).bind ?_
    rintro ⟨cancelled, asked⟩ m ⟨hgone, hitem, rfl⟩
    dsimp only at hgone hitem
    subst hgone
    refine (asks_attempt t h prompt n asked m).bind ?_
    rintro ⟨ending, tried⟩ all ⟨⟨hproceeds, k, rfl⟩, hmem⟩
    dsimp only at hproceeds hmem
    have hproceeds := (Proceeds.of_eq hitem).trans hproceeds
    have hdone {last : Job (σ × List Prompt)} (hlast : Proceeds tried.item last.item) (finished : Bool) :
        (∃ j, m + Multiset.replicate (k + 1) prompt = m + Multiset.replicate j prompt) ∧
          Proceeds job.item last.item ∧ (0 < left + 1 →
            Sent prompt job.item m last.item (m + Multiset.replicate (k + 1) prompt) ∧
              .requestSent ∈ last.item.later) :=
      ⟨⟨_, rfl⟩, hproceeds.trans hlast, fun _ => ⟨⟨hproceeds.trans hlast, k, rfl⟩, hlast.mem hmem⟩⟩
    cases ending with
    | finished => exact .pure (hdone (.refl _) true)
    | cancelled => exact .pure (hdone ⟨rfl, rfl, rfl, rfl, [.cancelled], rfl⟩ false)
    | failed =>
      have hnext : Proceeds tried.item (if left = 0 then tried else tried.move .retry).item := by
        split
        · exact .refl _
        · exact (Proceeds.refl _).move .retry
      refine (ih (n + 1) _ _).mono ?_
      rintro r all ⟨⟨j, rfl⟩, hrest, -⟩
      have hlast := hproceeds.trans (hnext.trans hrest)
      have hcount : m + Multiset.replicate (k + 1) prompt + Multiset.replicate j prompt =
          m + Multiset.replicate (k + j + 1) prompt := by
        rw [add_assoc, ← Multiset.replicate_add, Nat.add_right_comm]
      rw [hcount]
      exact ⟨⟨_, rfl⟩, hlast, fun _ => ⟨⟨hlast, k + j, rfl⟩, (hnext.trans hrest).mem hmem⟩⟩

/-- What a file that was not given up tells about the prompts that were sent: none, if its translation
was found or it was not parsed, and else one for this file, once or again and again. -/
inductive Asked (t : Translator (σ × List Prompt)) (item : Item) : Multiset Prompt → Prop
  | spared (known : item.cached = true ∨ item.outline = none) (stages : .requestSent ∉ item.later) :
      Asked t item 0
  | sent {prompt : Prompt} (n : Nat) (cached : item.cached = false)
      (asks : t.promptsFor item prompt) (stage : .requestSent ∈ item.later) :
      Asked t item (Multiset.replicate (n + 1) prompt)

omit h in
/-- Nothing else about the file matters. -/
theorem Asked.of_eq {item later : Item} {m : Multiset Prompt} (hm : Asked t item m)
    (hsource : later.source = item.source) (houtline : later.outline = item.outline)
    (hmodule : later.module = item.module) (hcached : later.cached = item.cached)
    (hlater : later.later = item.later) : Asked t later m := by
  cases hm with
  | spared known stages =>
    rw [← hcached, ← houtline] at known
    rw [← hlater] at stages
    exact .spared known stages
  | @sent prompt n cached asks stage =>
    refine .sent n (hcached.trans cached) ?_ (hlater ▸ stage)
    unfold Translator.promptsFor at asks ⊢
    rw [hsource, houtline, hmodule]
    exact asks

theorem asks_convert (hgoes : service.GoesOn) (hattempts : 0 < t.settings.maxAttempts)
    {job : Job (σ × List Prompt)} (hcached : job.item.cached = false)
    (hlater : job.item.later = []) :
    (convert t job).Adds Shared.prompts (fun r m => Asked t r.2.item m) 0 := by
  refine (asks_isCancelled t h hgoes job 0).bind ?_
  rintro ⟨cancelled, asked⟩ m ⟨hgone, hitem, rfl⟩
  dsimp only at hgone hitem
  subst hgone
  have hlooked : (onJob lookUp (asked.move .cacheCheck)).Adds Shared.prompts
      (fun r m => r.2.item = job.item.move .cacheCheck ∧ m = 0) 0 := by
    refine .act fun s => ⟨0, (add_zero _).symm, ?_, add_zero 0⟩
    rw [← hitem]
    rfl
  refine hlooked.bind ?_
  rintro ⟨hit, looked⟩ m ⟨hlookedItem, rfl⟩
  dsimp only at hlookedItem
  cases hit with
  | some hit =>
    refine .pure (.spared (.inl rfl) ?_)
    have hstages : looked.item.later = [.cacheCheck] := by
      rw [hlookedItem, Item.move, hlater]
    change Stage.requestSent ∉ Stage.done :: .cacheHit :: looked.item.later
    rw [hstages]
    decide
  | none =>
    have hbuilt : Proceeds job.item ((looked.move .cacheMiss).move .contextBuild).item := by
      rw [Job.item_move, Job.item_move, hlookedItem]
      exact ⟨rfl, rfl, rfl, rfl, [.contextBuild, .cacheMiss, .cacheCheck], rfl⟩
    refine (asks_attempts t h hgoes _ t.settings.maxAttempts 1 _ 0).mono ?_
    rintro r m ⟨-, -, hsent⟩
    obtain ⟨⟨hproceeds, n, rfl⟩, hmem⟩ := hsent hattempts
    rw [zero_add]
    refine .sent n ((hproceeds.cached.trans hbuilt.cached).trans hcached) ?_ hmem
    unfold Translator.promptsFor
    rw [hproceeds.source, hproceeds.outline, hproceeds.module]
    exact ⟨_, rfl⟩

/-- The work on a file asks for this file alone, and not at all if its translation is found. -/
theorem asks_process (hgoes : service.GoesOn) (hattempts : 0 < t.settings.maxAttempts)
    (output : Path) (refuses : Layout.Placement → Option Layout.WriteError) (a : Analyzed) :
    (process t output refuses a).Adds Shared.prompts (Asked t) 0 := by
  unfold process
  cases a.outline with
  | error reason =>
    exact .act fun s => ⟨0, (add_zero _).symm, .spared (.inr rfl) List.not_mem_nil⟩
  | ok outline =>
    have hstarted : (Task.act fun s : Shared (σ × List Prompt) =>
        (({ item := .start a.file (some outline) a.placement.module a.placement.fileName
            cache := s.cache, files := s.files, outside := s.outside } : Job _), s)).Adds
        Shared.prompts (fun job m => job.item =
          .start a.file (some outline) a.placement.module a.placement.fileName ∧ m = 0) 0 :=
      .act fun s => ⟨0, (add_zero _).symm, rfl, add_zero 0⟩
    refine hstarted.bind ?_
    rintro job m ⟨hitem, rfl⟩
    refine (asks_convert t h hgoes hattempts (by rw [hitem]; rfl) (by rw [hitem]; rfl)).bind ?_
    rintro ⟨done, last⟩ m hasked
    have hsaid : (Task.act fun s : Shared (σ × List Prompt) => ((), s.say last.log)).Adds
        Shared.prompts (fun _ n => n = m) m :=
      .act fun s => ⟨0, (add_zero _).symm, add_zero m⟩
    refine hsaid.bind ?_
    rintro - n rfl
    cases done with
    | false => exact .pure hasked
    | true =>
      have hcancelled (s : Shared (σ × List Prompt)) : Shared.prompts
          { s with outside := (t.service.cancelled s.outside).2 } = s.prompts := by
        unfold Shared.prompts
        rw [h]
        rfl
      refine .of_quiet (quiet_finish (fun _ _ houtside _ _ => prompts_of_outside houtside) t output
        refuses hcancelled last.item) ?_
      rintro later ⟨_, _, _, _, rfl⟩
      exact hasked.of_eq t rfl rfl rfl rfl rfl

end Conversion

end Work

end Recast.Run
