/-
  Proofs/Cache/History.lean --- what a cache knows after a history of changes.

  A cache with a working store is a table from paths to what is known about one content of a file
  (`Memo`).  A change has an effect on the memo of each path (`Change.effect`), and the cache follows
  it (`memo?_replay`), except that it takes files for one whose paths show as the same text.  What can
  be looked up in the end can be told from the history alone: it was put there, and no later change
  has undone that (`recalls_replay`).
-/
import Mathlib.Data.List.Induction
import Recast.Proofs.Cache.Working

set_option autoImplicit false

namespace Recast.Cache

/-! ## Changes -/

/-- A part of what is remembered about content. -/
inductive Part where
  | outline (outline : Outline)
  | translation (translation : Translation)

/-- A change of a cache. -/
inductive Change where
  | put (path : Path) (digest : Digest) (part : Part)
  | clearFile (path : Path)
  | clear

/-- The cache and the files after a change. -/
def Change.apply (s : Cache × Files) : Change → Cache × Files
  | put path digest (.outline outline) =>
    let (c, files, _) := s.1.putOutline s.2 path digest outline
    (c, files)
  | put path digest (.translation translation) =>
    let (c, files, _) := s.1.putTranslation s.2 path digest translation
    (c, files)
  | clearFile path =>
    let (c, files, _) := s.1.clearFile s.2 path
    (c, files)
  | clear =>
    let (_, c, files, _) := s.1.clear s.2
    (c, files)

/-- The cache and the files after a history of changes. -/
def replay (history : List Change) (s : Cache × Files) : Cache × Files :=
  history.foldl Change.apply s

/-- A part whose numbers fit machine words. -/
def Part.Fits : Part → Prop
  | outline o => o.Fits
  | translation t => t.origin.Fits

/-- A change whose numbers fit machine words. -/
def Change.Fits : Change → Prop
  | put _ _ part => part.Fits
  | _ => True

/-- The file that a change is about. -/
def Change.path? : Change → Option Path
  | put path _ _ => some path
  | clearFile path => some path
  | clear => none

/-! ## Memos -/

/-- What is known about one content of a file. -/
structure Memo where
  digest : Digest
  outline : Option Outline := none
  translation : Option Translation := none

/-- What an entry says, whenever it was written. -/
def Entry.memo (e : Entry) : Memo := ⟨e.digest, e.outline, e.translation⟩

/-- What a cache knows about a file. -/
def memo? (c : Cache) (files : Files) (path : Path) : Option Memo :=
  (c.remembers files path).map Entry.memo

namespace Memo

/-- The memo with one more part, which replaces one of its kind. -/
def add (m : Memo) : Part → Memo
  | .outline o => { m with outline := some o }
  | .translation t => { m with translation := some t }

/-- What is known about content with a digest. -/
def about (digest : Digest) (m : Option Memo) : Option Memo := m.filter fun m => m.digest = digest

@[simp] theorem digest_add (m : Memo) (part : Part) : (m.add part).digest = m.digest := by
  cases part <;> rfl

end Memo

/-- What a change does to what is known about the files with some paths. -/
def Change.effect (mine : Path → Prop) [DecidablePred mine] (m : Option Memo) :
    Change → Option Memo
  | put p digest part =>
    if mine p then some (((Memo.about digest m).getD { digest }).add part) else m
  | clearFile p => if mine p then none else m
  | clear => none

/-- What is known about the files with some paths after a history, if nothing was known before. -/
def recollection (history : List Change) (mine : Path → Prop) [DecidablePred mine] : Option Memo :=
  history.foldl (Change.effect mine) none

/-! ## The cache follows the memos -/

/-- What is known depends on the store alone. -/
theorem memo?_congr {c d : Cache} (h : d.store = c.store) (files : Files) (path : Path) :
    d.memo? files path = c.memo? files path := by
  rw [memo?, memo?, remembers_congr h]

theorem about_map_memo (digest : Digest) (known : Option Entry) :
    Memo.about digest (known.map Entry.memo) = (matching digest known).map Entry.memo := by
  cases known with
  | none => rfl
  | some e =>
    rw [Option.map_some, Memo.about, matching, Option.filter_some, Option.filter_some]
    by_cases hdigest : e.digest = digest
    · simp [Entry.memo, hdigest]
    · simp [Entry.memo, hdigest]

theorem about_memo? (c : Cache) (files : Files) (path : Path) (digest : Digest) :
    Memo.about digest (c.memo? files path) =
      (matching digest (c.remembers files path)).map Entry.memo :=
  about_map_memo digest (c.remembers files path)

/-- The change of an entry that adds a part. -/
def Part.change : Part → Entry → Entry
  | outline o, e => { e with outline := some o }
  | translation t, e => { e with translation := some t }

/-- An entry that a part was added to says what it said about the content, and that part. -/
theorem memo_change (digest : Digest) (known : Option Entry) (part : Part) (time : Timestamp) :
    Entry.memo { part.change ((matching digest known).getD { digest }) with time } =
      ((Memo.about digest (known.map Entry.memo)).getD { digest }).add part := by
  rw [about_map_memo]
  cases matching digest known <;> cases part <;> rfl

theorem memo_nextEntry (c : Cache) (files : Files) (path : Path) (digest : Digest) (part : Part) :
    (c.nextEntry files path digest part.change).memo =
      ((Memo.about digest (c.memo? files path)).getD { digest }).add part :=
  memo_change digest (c.remembers files path) part c.now

theorem fits_change (digest : Digest) {known : Option Entry} (hknown : ∀ e, known = some e → e.Fits)
    {part : Part} (h : part.Fits) : (part.change ((matching digest known).getD { digest })).Fits := by
  have hbefore : ((matching digest known).getD { digest }).Fits := by
    cases hmatching : matching digest known with
    | none => exact ⟨nofun, nofun⟩
    | some e => exact hknown e (Option.filter_eq_some_iff.1 hmatching).1
  cases part with
  | outline o =>
    refine ⟨fun o' ho' => ?_, hbefore.translation⟩
    cases ho'
    exact h
  | translation t =>
    refine ⟨hbefore.outline, fun t' ht' => ?_⟩
    cases ht'
    exact h

theorem fits_nextEntry (c : Cache) (files : Files) (path : Path) (digest : Digest) {part : Part}
    (h : part.Fits) : (c.nextEntry files path digest part.change).Fits :=
  have hfits := fits_change digest (fun _ => fits_of_remembers) h
  ⟨hfits.outline, hfits.translation⟩

theorem apply_put (c : Cache) (files : Files) (path : Path) (digest : Digest) (part : Part) :
    (Change.put path digest part).apply (c, files) =
      ((c.update files path digest part.change).1, (c.update files path digest part.change).2.1) := by
  cases part <;> rfl

/-- Changes of one file have the same effect as those of files that show alike, if no two do. -/
theorem effect_shown {path : Path} {ch : Change}
    (h : ∀ other, ch.path? = some other → other.text = path.text → other = path)
    (m : Option Memo) : ch.effect (·.text = path.text) m = ch.effect (· = path) m := by
  have hmine (other : Path) (hother : ch.path? = some other) :
      other.text = path.text ↔ other = path := ⟨h other hother, congrArg Path.text⟩
  cases ch with
  | put p digest part => simp only [Change.effect, hmine p rfl]
  | clearFile p => simp only [Change.effect, hmine p rfl]
  | clear => rfl

/-- A change has its effect on what a working cache knows about a file: that of a change of the file
if it is about one that shows as the same text. -/
theorem memo?_apply {c : Cache} {files : Files} (h : Working c files) {ch : Change}
    (hfits : ch.Fits) :
    (∃ t, (ch.apply (c, files)).1 = { c with store := .ok t }) ∧
      Working (ch.apply (c, files)).1 (ch.apply (c, files)).2 ∧
      (∀ p q, c.Separates p q → (ch.apply (c, files)).1.Separates p q) ∧
      ∀ path, (∀ other, ch.path? = some other → c.Separates other path) →
        (ch.apply (c, files)).1.memo? (ch.apply (c, files)).2 path =
          ch.effect (·.text = path.text) (c.memo? files path) := by
  cases ch with
  | put p digest part =>
    obtain ⟨t, g, log, hupdate, hworking, hseparates, hremembers⟩ :=
      h.update (fits_nextEntry c files p digest hfits)
    rw [apply_put, hupdate]
    refine ⟨⟨t, rfl⟩, hworking, hseparates, fun path hpath => ?_⟩
    rw [memo?, hremembers path (hpath p rfl), Change.effect]
    split
    · next heq =>
      have hkey : entryKey p = entryKey path := entryKey_inj.2 heq
      rw [Option.map_some, memo_nextEntry, memo?, memo?, remembers_congr_key hkey]
    · rfl
  | clearFile p =>
    obtain ⟨t, g, log, hclear, hworking, hseparates, hremembers⟩ := h.clearFile p
    rw [Change.apply, hclear]
    refine ⟨⟨t, rfl⟩, hworking, hseparates, fun path hpath => ?_⟩
    rw [memo?, hremembers path (hpath p rfl), Change.effect]
    split
    · rfl
    · rfl
  | clear =>
    obtain ⟨n, t, g, log, hclear, hworking, hseparates, hremembers⟩ := h.clear
    rw [Change.apply, hclear]
    refine ⟨⟨t, rfl⟩, hworking, hseparates, fun path _ => ?_⟩
    rw [memo?, hremembers path]
    rfl

/-- Of a file that is told apart from the one that it is about, a change leaves alone what is
known. -/
theorem memo?_apply_of_toldApart {c : Cache} {files : Files} (h : Working c files) {ch : Change}
    (hfits : ch.Fits) {path : Path} (htold : ∀ other, ch.path? = some other → ToldApart other path) :
    (ch.apply (c, files)).1.memo? (ch.apply (c, files)).2 path =
      ch.effect (· = path) (c.memo? files path) := by
  obtain ⟨-, -, -, hmemo⟩ := memo?_apply h hfits
  rw [hmemo path fun other hother => (htold other hother).separates c]
  exact effect_shown (fun other hother => (htold other hother).eq_of_text_eq) _

/-- A history has its effect on what a working cache knows about a file. -/
theorem memo?_replay {c : Cache} {files : Files} (h : Working c files) {history : List Change}
    (hfits : ∀ ch ∈ history, ch.Fits) {path : Path}
    (hpath : ∀ ch ∈ history, ∀ other, ch.path? = some other → c.Separates other path) :
    (replay history (c, files)).1.force = c.force ∧
      Working (replay history (c, files)).1 (replay history (c, files)).2 ∧
      (replay history (c, files)).1.memo? (replay history (c, files)).2 path =
        history.foldl (Change.effect (·.text = path.text)) (c.memo? files path) := by
  induction history generalizing c files with
  | nil => exact ⟨rfl, h, rfl⟩
  | cons ch history ih =>
    obtain ⟨⟨t, hcache⟩, hworking, hseparates, hmemo⟩ := memo?_apply h (hfits ch (.head _))
    have hrest := ih hworking (fun ch' hch' => hfits ch' (.tail _ hch'))
      fun ch' hch' other hother => hseparates _ _ (hpath ch' (.tail _ hch') other hother)
    rw [hmemo path (hpath ch (.head _))] at hrest
    refine ⟨hrest.1.trans ?_, hrest.2⟩
    rw [hcache]

/-! ## Histories -/

/-- A history holds a change of a kind, and all later ones are of another kind. -/
def Stands (history : List Change) (kind later : Change → Prop) : Prop :=
  ∃ before ch after, history = before ++ ch :: after ∧ kind ch ∧ ∀ x ∈ after, later x

theorem stands_concat {history : List Change} {last : Change} {kind later : Change → Prop} :
    Stands (history ++ [last]) kind later ↔
      kind last ∨ (later last ∧ Stands history kind later) := by
  constructor
  · rintro ⟨before, ch, after, heq, hkind, hlater⟩
    rcases List.eq_nil_or_concat after with rfl | ⟨init, x, rfl⟩
    · cases (List.append_inj' heq rfl).2
      exact .inl hkind
    · rw [List.concat_eq_append, ← List.cons_append, ← List.append_assoc] at heq
      obtain ⟨hinit, hx⟩ := List.append_inj' heq rfl
      cases hx
      exact .inr ⟨hlater _ (by simp), before, ch, init, hinit, hkind,
        fun y hy => hlater y (by simp [hy])⟩
  · rintro (hkind | ⟨hlast, before, ch, after, rfl, hkind, hlater⟩)
    · exact ⟨history, last, [], rfl, hkind, nofun⟩
    · refine ⟨before, ch, after ++ [last], by simp, hkind, fun x hx => ?_⟩
      rcases List.mem_append.1 hx with hx | hx
      · exact hlater x hx
      · rw [List.mem_singleton.1 hx]
        exact hlast

theorem not_stands_nil (kind later : Change → Prop) : ¬Stands [] kind later := by
  rintro ⟨before, ch, after, heq, -⟩
  simp at heq

/-- A change that puts something about content with a digest. -/
def Change.Puts (mine : Path → Prop) (digest : Digest) (what : Part → Prop) : Change → Prop
  | put p d part => mine p ∧ d = digest ∧ what part
  | _ => False

/-- A change that does not undo what is known about content with a digest. -/
def Change.Keeps (mine : Path → Prop) (digest : Digest) : Change → Prop
  | put p d _ => mine p → d = digest
  | clearFile p => ¬mine p
  | clear => False

/-- A change that has to do with some files. -/
def Change.Touches (mine : Path → Prop) : Change → Prop
  | put p _ _ => mine p
  | clearFile p => mine p
  | clear => True

section Mine

variable (mine : Path → Prop) [DecidablePred mine]

theorem recollection_concat (history : List Change) (last : Change) :
    recollection (history ++ [last]) mine = last.effect mine (recollection history mine) :=
  List.foldl_append

/-- What a change does to what is known about content with a digest. -/
theorem about_effect (digest : Digest) (m : Option Memo) (ch : Change) :
    Memo.about digest (ch.effect mine m) =
      match ch with
      | .put p d part =>
        if mine p then
          if d = digest then some (((Memo.about digest m).getD { digest }).add part) else none
        else Memo.about digest m
      | .clearFile p => if mine p then none else Memo.about digest m
      | .clear => none := by
  cases ch with
  | put p d part =>
    dsimp only [Change.effect]
    by_cases hmine : mine p
    · have hdigest : (((Memo.about d m).getD { digest := d }).add part).digest = d := by
        rw [Memo.digest_add]
        cases habout : Memo.about d m with
        | none => rfl
        | some found => simpa using (Option.filter_eq_some_iff.1 habout).2
      rw [if_pos hmine, if_pos hmine, Memo.about, Option.filter_some, hdigest]
      by_cases hd : d = digest
      · simp [hd]
      · simp [hd]
    · rw [if_neg hmine, if_neg hmine]
  | clearFile p =>
    dsimp only [Change.effect]
    split
    · rfl
    · rfl
  | clear => rfl

/-- A part of what is known in the end was put there, and nothing later has undone that.  The parts
are of a kind that `read` finds and that no other part changes. -/
theorem recollection_eq_some_iff {α : Type} {read : Memo → Option α} {part : α → Part}
    (hnew : ∀ digest, read { digest } = none)
    (hsame : ∀ (m : Memo) (a : α), read (m.add (part a)) = some a)
    (hother : ∀ (m : Memo) (q : Part), (∀ a, q ≠ part a) → read (m.add q) = read m)
    (history : List Change) (digest : Digest) (a : α) :
    (Memo.about digest (recollection history mine)).bind read = some a ↔
      Stands history (Change.Puts mine digest (· = part a)) fun ch =>
        ch.Keeps mine digest ∧ ¬ch.Puts mine digest fun q => ∃ b, q = part b := by
  have hinjective {a b : α} (h : part a = part b) : a = b := by
    have hread := hsame { digest } a
    rw [h, hsame, Option.some.injEq] at hread
    exact hread.symm
  induction history using List.reverseRecOn with
  | nil => exact iff_of_false nofun (not_stands_nil _ _)
  | append_singleton history last ih =>
    simp only [recollection_concat, stands_concat, about_effect, ← ih]
    generalize Memo.about digest (recollection history mine) = known
    cases last with
    | clear => simp [Change.Keeps, Change.Puts]
    | clearFile p =>
      by_cases hmine : mine p
      · simp [Change.Keeps, Change.Puts, hmine]
      · simp [Change.Keeps, Change.Puts, hmine]
    | put p d q =>
      by_cases hmine : mine p
      · by_cases hdigest : d = digest
        · subst hdigest
          by_cases hq : ∃ b, q = part b
          · obtain ⟨b, rfl⟩ := hq
            have hsame' : part b = part a ↔ b = a := ⟨hinjective, congrArg part⟩
            have hput : ∃ x, part b = part x := ⟨b, rfl⟩
            simp [hsame, hsame', hput, hmine, Change.Keeps, Change.Puts]
          · have hq' : ∀ b, q ≠ part b := not_exists.1 hq
            have hkept : read ((known.getD { digest := d }).add q) = known.bind read := by
              rw [hother _ q hq']
              cases known with
              | none => exact hnew d
              | some m => rfl
            simp [hkept, hq', hmine, Change.Keeps, Change.Puts]
        · simp [Change.Keeps, Change.Puts, hdigest, hmine]
      · simp [Change.Keeps, Change.Puts, hmine]

/-- What is known in the end is about the content that the last change was about, if that was not
undone. -/
theorem about_recollection_ne_none_iff (history : List Change) (digest : Digest) :
    Memo.about digest (recollection history mine) ≠ none ↔
      Stands history (Change.Puts mine digest fun _ => True) fun ch => ¬ch.Touches mine := by
  induction history using List.reverseRecOn with
  | nil => exact iff_of_false (fun h => h rfl) (not_stands_nil _ _)
  | append_singleton history last ih =>
    simp only [recollection_concat, stands_concat, about_effect, ← ih]
    cases last with
    | clear => simp [Change.Touches, Change.Puts]
    | clearFile p =>
      by_cases hmine : mine p
      · simp [Change.Touches, Change.Puts, hmine]
      · simp [Change.Touches, Change.Puts, hmine]
    | put p d q =>
      by_cases hmine : mine p
      · by_cases hdigest : d = digest
        · simp [Change.Touches, Change.Puts, hmine, hdigest]
        · simp [Change.Touches, Change.Puts, hmine, hdigest]
      · simp [Change.Touches, Change.Puts, hmine]

end Mine

/-! ## Force -/

theorem reportFailure_force (c : Cache) (force : Bool) (e : StoreError) :
    reportFailure { c with force } e = ({ (c.reportFailure e).1 with force }, (c.reportFailure e).2) := by
  obtain ⟨store, _, now, failure, hits, misses⟩ := c
  cases failure with
  | none => rfl
  | some text => rfl

theorem load_force (c : Cache) (force : Bool) (files : Files) (path : Path) :
    Cache.load { c with force } files path =
      ((c.load files path).1, { (c.load files path).2.1 with force }, (c.load files path).2.2) := by
  have hreport := reportFailure_force c force
  obtain ⟨store, _, now, failure, hits, misses⟩ := c
  cases store with
  | error reason => rfl
  | ok s =>
    unfold Cache.load
    dsimp only
    cases s.get files (entryKey path) with
    | error e => exact congrArg (Prod.mk none) (hreport e)
    | ok found =>
      cases found with
      | none => rfl
      | some bytes =>
        dsimp only
        cases Entry.decode? bytes with
        | none => rfl
        | some e => rfl

/-- Changes do the same whether or not a cache counts translations as missing. -/
theorem apply_force (ch : Change) (c : Cache) (files : Files) (force : Bool) :
    ch.apply ({ c with force }, files) =
      ({ (ch.apply (c, files)).1 with force }, (ch.apply (c, files)).2) := by
  cases ch with
  | put path digest part =>
    rw [apply_put, apply_put]
    unfold Cache.update
    have hload := load_force c force files path
    have hreport := reportFailure_force (c.load files path).2.1 force
    generalize c.load files path = loaded at hload hreport
    obtain ⟨entry, d, log⟩ := loaded
    obtain ⟨store, _, now, failure, hits, misses⟩ := c
    cases store with
    | error reason => rfl
    | ok s =>
      dsimp only at hload hreport ⊢
      rw [hload]
      dsimp only
      generalize part.change ((matching digest entry).getD { digest }) = next
      cases s.set files (entryKey path) { next with time := d.now }.encode with
      | ok after => rfl
      | error e => exact congrArg (fun r => (r.1, files)) (hreport e)
  | clearFile path =>
    have hreport := reportFailure_force c force
    unfold Change.apply Cache.clearFile
    obtain ⟨store, _, now, failure, hits, misses⟩ := c
    cases store with
    | error reason => rfl
    | ok s =>
      dsimp only
      cases s.delete files (entryKey path) with
      | error e => exact congrArg (fun r => (r.1, files)) (hreport e)
      | ok after => rfl
  | clear =>
    unfold Change.apply Cache.clear
    obtain ⟨store, _, now, failure, hits, misses⟩ := c
    cases store with
    | error reason => rfl
    | ok s =>
      dsimp only
      obtain ⟨result, t, g⟩ := s.clear files
      cases result with
      | error e =>
        dsimp only
        rw [reportFailure_force ⟨.ok t, _, now, failure, hits, misses⟩ force e]
      | ok n => rfl

theorem replay_force (history : List Change) (c : Cache) (files : Files) (force : Bool) :
    replay history ({ c with force }, files) =
      ({ (replay history (c, files)).1 with force }, (replay history (c, files)).2) := by
  induction history generalizing c files with
  | nil => rfl
  | cons ch history ih =>
    change replay history (ch.apply ({ c with force }, files)) = _
    rw [apply_force, ih]
    rfl

/-! ## Look-ups -/

/-- What a cache answers about a file after a history of the files with some paths, if it knew nothing
about it before. -/
structure Recalls (history : List Change) (mine : Path → Prop) (path : Path) (c : Cache)
    (files : Files) : Prop where
  outline : ∀ digest outline, (c.outline? files path digest).1 = some outline ↔
    Stands history (Change.Puts mine digest (· = .outline outline)) fun ch =>
      ch.Keeps mine digest ∧ ¬ch.Puts mine digest fun part => ∃ o, part = .outline o
  translation : c.force = false → ∀ digest translation,
    (c.translation? files path digest).1 = some translation ↔
      Stands history (Change.Puts mine digest (· = .translation translation)) fun ch =>
        ch.Keeps mine digest ∧ ¬ch.Puts mine digest fun part => ∃ t, part = .translation t
  stale : c.force = false → ∀ content, (c.isStale files path content).1 = false ↔
    Stands history (Change.Puts mine (Digest.ofBytes content) fun _ => True)
      fun ch => ¬ch.Touches mine
  forced : c.force = true → (∀ digest, (c.translation? files path digest).1 = none) ∧
    ∀ content, (c.isStale files path content).1 = true

theorem outline_add_of_ne (m : Memo) (q : Part) (h : ∀ o, q ≠ .outline o) :
    (m.add q).outline = m.outline := by
  cases q with
  | outline o => exact absurd rfl (h o)
  | translation t => rfl

theorem translation_add_of_ne (m : Memo) (q : Part) (h : ∀ t, q ≠ .translation t) :
    (m.add q).translation = m.translation := by
  cases q with
  | outline o => rfl
  | translation t => exact absurd rfl (h t)

theorem recalls_of_memo? {history : List Change} {mine : Path → Prop} [DecidablePred mine]
    {path : Path} {c : Cache} {files : Files} (h : c.memo? files path = recollection history mine) :
    Recalls history mine path c files := by
  have habout (digest : Digest) : Memo.about digest (recollection history mine) =
      (matching digest (c.remembers files path)).map Entry.memo := by
    rw [← h, about_memo?]
  refine ⟨fun digest outline => ?_, fun hforce digest translation => ?_,
    fun hforce content => ?_, fun hforce => ⟨fun digest => ?_, fun content => ?_⟩⟩
  · rw [fst_outline?, ← recollection_eq_some_iff mine (fun _ => rfl) (fun _ _ => rfl)
      outline_add_of_ne, habout]
    cases matching digest (c.remembers files path) <;> rfl
  · rw [fst_translation?, hforce, ← recollection_eq_some_iff mine (fun _ => rfl) (fun _ _ => rfl)
      translation_add_of_ne, habout]
    cases matching digest (c.remembers files path) <;> rfl
  · have hstale : (c.isStale files path content).1 =
        (matching (Digest.ofBytes content) (c.remembers files path)).isNone := by
      rw [isStale, hforce]
      rfl
    rw [hstale, ← about_recollection_ne_none_iff, habout]
    cases matching (Digest.ofBytes content) (c.remembers files path) <;> simp
  · rw [fst_translation?, hforce]
    rfl
  · rw [isStale, hforce]
    rfl

theorem recollection_shown {path : Path} {history : List Change}
    (h : ∀ ch ∈ history, ∀ other, ch.path? = some other → other.text = path.text → other = path) :
    recollection history (·.text = path.text) = recollection history (· = path) := by
  induction history using List.reverseRecOn with
  | nil => rfl
  | append_singleton history last ih =>
    rw [recollection_concat, recollection_concat, ih fun ch hch => h ch (by simp [hch])]
    exact effect_shown (h last (by simp)) _

/-- A working cache that knew nothing about a file recalls the history of all files that show as the
same text, which is its own history if no other file shows so, and goes on working.  The changes are
the same whether or not translations count as missing. -/
theorem recalls_replay {c : Cache} {files : Files} (hworking : Working c files)
    {history : List Change} (hfits : ∀ ch ∈ history, ch.Fits) {path : Path}
    (hnew : c.remembers files path = none)
    (hpath : ∀ ch ∈ history, ∀ other, ch.path? = some other → c.Separates other path) :
    Recalls history (·.text = path.text) path (replay history (c, files)).1
        (replay history (c, files)).2 ∧
      ((∀ ch ∈ history, ∀ other, ch.path? = some other → other.text = path.text → other = path) →
        Recalls history (· = path) path (replay history (c, files)).1
          (replay history (c, files)).2) ∧
      Working (replay history (c, files)).1 (replay history (c, files)).2 ∧
      (replay history (c, files)).1.force = c.force ∧
      ∀ force, replay history ({ c with force }, files) =
        ({ (replay history (c, files)).1 with force }, (replay history (c, files)).2) := by
  obtain ⟨hforce, hworking', hmemo⟩ := memo?_replay hworking hfits hpath
  have hnone : c.memo? files path = none := by
    rw [memo?, hnew]
    rfl
  rw [hnone] at hmemo
  refine ⟨recalls_of_memo? hmemo, fun hapart => recalls_of_memo? ?_, hworking', hforce,
    replay_force history c files⟩
  exact hmemo.trans (recollection_shown hapart)

/-- A translation is forgotten when other content comes and goes, another file or not. -/
theorem recalls_replay_directory :
    let c : Cache := { store := .ok (.inDirectory ⟨"/cache"⟩) }
    let files : Files := ({} : Files).put ["cache"] .directory
    let translation : Translation := ⟨"package a\n", ⟨"a", "a.go", "service", 1, .epoch⟩⟩
    let history : List Change :=
      [.put ⟨"a.py"⟩ ⟨"1"⟩ (.translation translation), .put ⟨"b.py"⟩ ⟨"1"⟩ (.outline {}),
        .put ⟨"a.py"⟩ ⟨"2"⟩ (.outline {}), .put ⟨"a.py"⟩ ⟨"1"⟩ (.outline {})]
    Working c files ∧
      Recalls history (· = ⟨"a.py"⟩) ⟨"a.py"⟩ (replay history (c, files)).1
        (replay history (c, files)).2 ∧
      recollection history (· = ⟨"a.py"⟩) = some { digest := ⟨"1"⟩, outline := some {} } := by
  intro c files translation history
  have hreached : ({} : Files).Reached ["cache"] :=
    (Files.Reached.root {}).down rfl ⟨by decide, by decide, by decide, by decide⟩ (by decide)
  have hfiles : files.WellFormed := Files.wellFormed_empty.put hreached (by decide) _
  have hempty (name : RawText) : files.node? ([("cache" : RawText)] ++ [name]) = none := by
    rw [Files.node?_put _ (by decide), if_neg (by simp)]
    rfl
  have hkept : KeptIn c ⟨"/cache"⟩ := rfl
  obtain ⟨hworking, hnew⟩ := working_directory hkept hfiles rfl hempty
  have hfits : ∀ ch ∈ history, ch.Fits := by
    have houtline : ({} : Outline).Fits := ⟨nofun, nofun⟩
    have htranslation : translation.origin.Fits := by
      simp [Origin.Fits, translation]
    simp only [history, List.forall_mem_cons]
    exact ⟨htranslation, houtline, houtline, houtline, nofun⟩
  have hpath : ∀ ch ∈ history, ∀ other, ch.path? = some other → c.Separates other ⟨"a.py"⟩ := by
    have ha : c.Separates ⟨"a.py"⟩ ⟨"a.py"⟩ := separates_refl c _
    have hb : c.Separates ⟨"b.py"⟩ ⟨"a.py"⟩ := by
      refine ToldApart.separates (fun h => absurd h.symm ?_) c
      rw [entryKey_mk, entryKey_mk]
      exact ofString_ne_ofString
    simp only [history, List.forall_mem_cons, Change.path?, Option.some.injEq, forall_eq']
    exact ⟨ha, hb, ha, ha, nofun⟩
  have halone : ∀ ch ∈ history, ∀ other, ch.path? = some other →
      other.text = (Path.mk "a.py").text → other = ⟨"a.py"⟩ := by
    simp [history, Change.path?]
  exact ⟨hworking, (recalls_replay hworking hfits (hnew ⟨"a.py"⟩) hpath).2.1 halone, rfl⟩

/-- Whether every working cache recalls the history of the files that are taken for the one it is
asked about. -/
def RecallsWhole (mine : Path → Path → Prop) : Prop :=
  ∀ (c : Cache) (files : Files) (history : List Change) (path : Path), Working c files →
    (∀ ch ∈ history, ch.Fits) → c.remembers files path = none →
    (∀ ch ∈ history, ∀ other, ch.path? = some other → c.Separates other path) →
    Recalls history (mine path) path (replay history (c, files)).1 (replay history (c, files)).2

/-- The files that are taken for one put its translation exactly if those that show as the same text
do. -/
theorem RecallsWhole.stands_iff {mine : Path → Path → Prop} (h : RecallsWhole mine)
    {history : List Change} (hfits : ∀ ch ∈ history, ch.Fits) (path : Path) (digest : Digest)
    (translation : Translation) :
    let kind (owned : Path → Prop) := Change.Puts owned digest (· = .translation translation)
    let later (owned : Path → Prop) (ch : Change) := ch.Keeps owned digest ∧
      ¬ch.Puts owned digest fun part => ∃ t, part = .translation t
    Stands history (kind (mine path)) (later (mine path)) ↔
      Stands history (kind (·.text = path.text)) (later (·.text = path.text)) := by
  have hworking : Working { store := .ok .memory } {} := working_memory rfl {}
  have hpath : ∀ ch ∈ history, ∀ other, ch.path? = some other →
      Separates { store := .ok .memory } other path := by
    rintro ch - other - s ⟨rfl⟩ path ⟨⟩
  obtain ⟨hforce, -, hmemo⟩ := memo?_replay hworking hfits hpath
  have hown := (h _ {} history path hworking hfits rfl hpath).translation hforce digest translation
  exact hown.symm.trans ((recalls_of_memo? hmemo).translation hforce digest translation)

/-- A translation is forgotten when another file that shows as the same text comes, and not found
under another spelling of its path. -/
theorem recalls_fails_shown :
    ¬RecallsWhole (fun path other => other = path) ∧
      ¬RecallsWhole fun path other => other.same path = true := by
  let translation : Translation := ⟨"package a\n", ⟨"a", "a.go", "service", 1, .epoch⟩⟩
  have htranslation : translation.origin.Fits := by
    simp [Origin.Fits, translation]
  constructor
  · intro hclaim
    let history : List Change :=
      [] ++ [.put (.ofByte 0xFE) ⟨"1"⟩ (.translation translation)] ++
        [.put (.ofByte 0xFF) ⟨"2"⟩ (.outline {})]
    have houtline : ({} : Outline).Fits := ⟨nofun, nofun⟩
    have hfits : ∀ ch ∈ history, ch.Fits := by
      simp [history, Change.Fits, Part.Fits, htranslation, houtline]
    have hiff := hclaim.stands_iff hfits (.ofByte 0xFE) ⟨"1"⟩ translation
    have hne : Path.ofByte 0xFF ≠ .ofByte 0xFE := by decide
    simp only [history, stands_concat, not_stands_nil, and_false, or_false] at hiff
    simp [Change.Puts, Change.Keeps, Path.text_ofByte, hne] at hiff
  · intro hclaim
    let history : List Change := [] ++ [.put ⟨"/in//a.py"⟩ ⟨"1"⟩ (.translation translation)]
    have hfits : ∀ ch ∈ history, ch.Fits := by
      simp [history, Change.Fits, Part.Fits, htranslation]
    have hiff := hclaim.stands_iff hfits ⟨"/in/a.py"⟩ ⟨"1"⟩ translation
    have hsame : Path.same ⟨"/in//a.py"⟩ ⟨"/in/a.py"⟩ = true := by decide +kernel
    simp only [history, stands_concat, not_stands_nil, and_false, or_false] at hiff
    simp [Change.Puts, hsame] at hiff

end Recast.Cache
