/-
  Proofs/Conversion/Fallback.lean --- what a conversion that is not given up ends with.

  It always ends with a text.  A translation passes the check; a skeleton passes exactly if its
  declarations do, which only the parameters of a Python function can prevent.
-/
import Recast.Proofs.Conversion.Validity
import Recast.Proofs.Go.Skeleton

set_option autoImplicit false

namespace Recast.Conversion

variable {σ : Type}

theorem ne_empty_of_valid {output : String} (h : (Go.checkString output).valid = true) :
    output ≠ "" := by
  rintro rfl
  exact absurd h (by decide)

/-- A skeleton is not empty. -/
theorem render_ne_empty (module fileName : String) (o : Outline) :
    Go.Skeleton.render module fileName o ≠ "" := by
  intro h
  have hlist := Go.Skeleton.toList_render module fileName o
  rw [h] at hlist
  cases hlist

theorem named_of_ofText {text : List Char} {o : Outline} (h : Outline.ofText text = .ok o) :
    o.Named := by
  unfold Outline.ofText at h
  split at h
  · cases h
    exact Outline.named_ofTree _ _
  · cases h

/-- A parameter list that can be copied into a skeleton: it is made of names, or it shows no fault
and leaves nothing open. -/
def Copyable (f : FunctionDecl) : Prop :=
  (∀ p ∈ f.params, Python.isName p.toList = true) ∨
    Go.Lexer.Passes (Go.Skeleton.paramList f).toList

/-- What the output for a file with an outline is like. -/
structure Delivered (o : Outline) (item : Item) (output : String) : Prop where
  given : item.output = some output
  nonempty : output ≠ ""
  /-- Only a skeleton can fail the check, and does so exactly if its declarations show a fault. -/
  checked : (Go.checkString output).valid = true ↔ (item.fallback = true →
    (Go.Lexer.feed {} (Go.Skeleton.declarations o)).finish = [])
  copied : (∀ f ∈ o.functions, Copyable f) → (Go.checkString output).valid = true

/-- Valid Go that is no skeleton is as it should be. -/
theorem delivered_of_valid {o : Outline} {item : Item} {output : String}
    (houtput : item.output = some output) (hfallback : item.fallback = false)
    (hvalid : (Go.checkString output).valid = true) : Delivered o item output := by
  refine ⟨houtput, ne_empty_of_valid hvalid, ?_, fun _ => hvalid⟩
  rw [hfallback]
  exact ⟨fun _ h => Bool.noConfusion h, fun _ => hvalid⟩

/-- A skeleton made from the outline of a text is as it should be. -/
theorem delivered_render {text : List Char} {o : Outline} (analysed : Outline.ofText text = .ok o)
    {module fileName : String} (named : Layout.isPackageName module = true)
    (oneLine : '\n' ∉ fileName.toList) {item : Item}
    (houtput : item.output = some (Go.Skeleton.render module fileName o))
    (hfallback : item.fallback = true) :
    Delivered o item (Go.Skeleton.render module fileName o) := by
  have hrender := Go.Skeleton.valid_checkString_render named oneLine o
  refine ⟨houtput, render_ne_empty module fileName o, ?_, fun hcopyable => ?_⟩
  · exact hrender.trans ⟨fun h _ => h, fun h => h hfallback⟩
  · have hparams : ∀ f ∈ o.functions, Go.Lexer.Passes (Go.Skeleton.paramList f).toList := by
      intro f hf
      refine (hcopyable f hf).elim (fun hnames => ?_) id
      exact Go.Skeleton.passes_paramList fun p hp => Go.plain_of_isName (hnames p hp)
    exact hrender.2 (Go.Lexer.finish_feed_of_passes
      (Go.Skeleton.passes_declarations_of_named (named_of_ofText analysed) hparams))

/-- A conversion that is not given up is done and has an output that is not empty.  The output
passes the check, except that a skeleton passes exactly if its declarations show no fault, which
they never do if every parameter list can be copied. -/
theorem convert_delivers {c : Cache} {f : Files} (served : Served c f) (t : Translator σ)
    (source : SourceFile) (oneLine : '\n' ∉ source.path.fileName.toList) (text : List Char)
    (o : Outline) (analysed : Outline.ofText text = .ok o) (module goFile : String)
    (named : Layout.isPackageName module = true) (outside : σ) :
    let result := t.convert (.start source (some o) module goFile c f outside)
    result.2.item.stage ≠ .cancelled →
      result.1 = true ∧ result.2.item.stage = .done ∧
        ∃ output, Delivered o result.2.item output := by
  intro result hstage
  have hends := t.convert_ends (.start source (some o) module goFile c f outside)
  change t.Ends _ result at hends
  clear_value result
  have hfresh {last : Job σ}
      (kept : Keeps (Job.start source (some o) module goFile c f outside) last) :
      last.item.fallback = false ∧ last.item.outline = some o := by
    obtain ⟨_, _, _, hitem⟩ := kept.item
    rw [hitem]
    exact ⟨rfl, rfl⟩
  cases hends with
  | @cancelled last kept => exact absurd rfl hstage
  | @reused last hit kept found =>
    obtain ⟨e, he, htranslation⟩ := Option.bind_eq_some_iff.1 found
    have hcertified := served.sound _ e hit (Option.filter_eq_some_iff.1 he).1 htranslation
    refine ⟨rfl, rfl, _, delivered_of_valid rfl (hfresh kept).1 ?_⟩
    rw [kept.module]
    exact hcertified.valid_retargetString named
  | @accepted last code n kept checked count =>
    have hvalid := valid_checkString_of_checkText checked.2
    exact ⟨rfl, rfl, code, delivered_of_valid rfl (hfresh kept).1 hvalid⟩
  | @fellBack last kept =>
    refine ⟨rfl, rfl, _, delivered_render analysed named oneLine ?_ rfl⟩
    have hoptional : last.item.outline.getD {} = o := by
      rw [(hfresh kept).2]
      rfl
    change some (Go.Skeleton.render last.item.module last.item.source.path.fileName
      (last.item.outline.getD {})) = _
    rw [hoptional, kept.module, kept.source]
    rfl

/-- A service that never answers. -/
def refusing : Programmed := { respond := fun _ _ => .error (.malformed "no answer") }

theorem exists_outline_of_any {text : List Char} {p : Outline → Bool}
    (h : (Outline.ofText text).toOption.any p = true) :
    ∃ o, Outline.ofText text = .ok o ∧ p o = true := by
  cases hparse : Outline.ofText text with
  | ok o =>
    rw [hparse] at h
    exact ⟨o, rfl, h⟩
  | error e =>
    rw [hparse] at h
    exact Bool.noConfusion h

/-- A skeleton for a function whose parameters are names. -/
theorem convert_delivers_names :
    let text := "def f(a, *b, c=1):\n    pass\n"
    ∃ o, Outline.ofText text.toList = .ok o ∧
      let result := (Translator.programmed refusing).convert (.start (sourceOf text) (some o)
        "common" "a.go" { store := .ok .memory } {} refusing)
      result.2.item.stage ≠ .cancelled ∧ result.1 = true ∧ result.2.item.stage = .done ∧
        ∃ output, Delivered o result.2.item output := by
  intro text
  have hserved : Served { store := .ok .memory } {} :=
    .empty (Cache.remembers_eq_none_of_memory rfl {})
  have hrun : (Outline.ofText text.toList).toOption.any (fun o =>
      let result := (Translator.programmed refusing).convert (.start (sourceOf text) (some o)
        "common" "a.go" { store := .ok .memory } {} refusing)
      decide (result.2.item.stage ≠ .cancelled)) = true := by
    decide +kernel
  obtain ⟨o, hparse, hstage⟩ := exists_outline_of_any hrun
  have hstage := of_decide_eq_true hstage
  have hdone := convert_delivers hserved (.programmed refusing) (sourceOf text) (by decide +kernel)
    text.toList o hparse "common" "a.go" (by decide) refusing hstage
  exact ⟨o, hparse, hstage, hdone⟩

/-- A skeleton for a function with a comment inside a parameter that stands for two. -/
theorem convert_fails_check :
    let text := "def f((a, # it's\n b)=1):\n    pass\n"
    ∃ o output, Outline.ofText text.toList = .ok o ∧
      let result := (Translator.programmed refusing).convert (.start (sourceOf text) (some o)
        "common" "a.go" { store := .ok .memory } {} refusing)
      result.1 = true ∧ result.2.item.stage = .done ∧ result.2.item.output = some output ∧
        (Go.checkString output).valid = false := by
  intro text
  have hrun : (Outline.ofText text.toList).toOption.any (fun o =>
      let result := (Translator.programmed refusing).convert (.start (sourceOf text) (some o)
        "common" "a.go" { store := .ok .memory } {} refusing)
      decide (result.1 = true) && decide (result.2.item.stage = .done) &&
        result.2.item.output.any fun output => !(Go.checkString output).valid) = true := by
    decide +kernel
  obtain ⟨o, hparse, hrun⟩ := exists_outline_of_any hrun
  simp only [Bool.and_eq_true, decide_eq_true_eq, Option.any_eq_true, Bool.not_eq_true'] at hrun
  obtain ⟨⟨hfinished, hstage⟩, output, houtput, hinvalid⟩ := hrun
  exact ⟨o, output, hparse, hfinished, hstage, houtput, hinvalid⟩

end Recast.Conversion
