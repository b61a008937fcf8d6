/-
  Proofs/Path.lean --- the components of paths that are put together from names.

  A name without a slash that is not empty or made of dots is one component (`IsName`), and a path
  joined with such a name has that component behind its own (`components_join`).  Components make a
  path that has them again (`components_ofComponents`).
-/
import Recast.Path
import Recast.Proofs.Text.Raw

set_option autoImplicit false

namespace Recast

namespace Path

/-- The path that a text writes shows as the text. -/
@[simp] theorem text_mk (s : String) : (Path.mk s).text = s := RawText.text_ofString s

/-- A path that begins at the root shows so. -/
theorem head?_text {p : Path} (h : p.isAbsolute = true) : p.text.toList.head? = some '/' :=
  (RawText.head?_text (by decide) (by decide)).2 (eq_of_beq h)

/-- The path of a file whose name in front of its ending is a byte, which need not be text. -/
def ofByte (byte : UInt8) : Path := ⟨"/in/" ++ ⟨[byte]⟩ ++ ".py"⟩

/-- Different names may show as the same text. -/
theorem text_ofByte : (ofByte 0xFE).text = (ofByte 0xFF).text := by decide +kernel

/-- A name that is a component of a path on its own. -/
structure IsName (name : RawText) : Prop where
  notEmpty : name ≠ ""
  notCurrent : name ≠ "."
  notUp : name ≠ ".."
  noSlash : RawText.slash ∉ name.bytes

theorem isName_iff {name : RawText} :
    IsName name ↔ name ≠ "" ∧ name ≠ "." ∧ name ≠ ".." ∧ RawText.slash ∉ name.bytes :=
  ⟨fun h => ⟨h.notEmpty, h.notCurrent, h.notUp, h.noSlash⟩, fun h => ⟨h.1, h.2.1, h.2.2.1, h.2.2.2⟩⟩

instance (name : RawText) : Decidable (IsName name) := decidable_of_iff _ isName_iff.symm

/-- What a name is among texts. -/
theorem isName_ofString_iff {name : String} :
    IsName name ↔ name ≠ "" ∧ name ≠ "." ∧ name ≠ ".." ∧ '/' ∉ name.toList := by
  rw [isName_iff, RawText.slash_mem_ofString]
  simp only [ne_eq, RawText.ofString_inj]

/-! ## Components -/

theorem innerComponents_append (before after : List RawText) :
    innerComponents (before ++ after) = innerComponents before ++ innerComponents after :=
  List.filterMap_append

/-- A name is one component. -/
theorem innerComponents_name {name : RawText} (h : IsName name) :
    innerComponents [name] = [.normal name] := by
  simp [innerComponents, h.notEmpty, h.notCurrent, h.notUp]

/-- The components that the first piece of a path gives. -/
def leading (p : Path) (first : RawText) : List Component :=
  if p.isAbsolute then [.root]
  else if first = "." then [.current]
  else innerComponents [first]

theorem components_eq {p : Path} {first : RawText} {rest : List RawText}
    (h : p.raw.pieces = first :: rest) :
    p.components = leading p first ++ innerComponents rest := by
  rw [components, h, leading]
  dsimp only
  split
  · rfl
  · split
    · rfl
    · exact innerComponents_append [first] rest

theorem isAbsolute_of_noSlash {name : RawText} (h : RawText.slash ∉ name.bytes) :
    (Path.mk name).isAbsolute = false :=
  beq_eq_false_iff_ne.2 fun hslash => h (List.mem_of_head? hslash)

/-- Where a path begins is decided by its first bytes. -/
theorem isAbsolute_append {a : RawText} (h : a ≠ "") (b : RawText) :
    (Path.mk (a ++ b)).isAbsolute = (Path.mk a).isAbsolute := by
  rw [isAbsolute, isAbsolute, RawText.head?_append h]

/-- The bytes of a path joined with a name. -/
theorem raw_join {p : Path} {name : RawText} (h : IsName name) (hp : p.raw ≠ "") :
    (∃ before, p.raw = before ++ "/" ∧ (p.join name).raw = before ++ "/" ++ name) ∨
      (p.join name).raw = p.raw ++ "/" ++ name := by
  have hhead : ¬((Path.mk name).isAbsolute = true ∨ p.raw = "") := by
    rintro (hslash | hempty)
    · rw [isAbsolute_of_noSlash h.noSlash] at hslash
      cases hslash
    · exact hp hempty
  rw [join, if_neg hhead]
  split
  · next hlast =>
    obtain ⟨before, hbefore⟩ := List.getLast?_eq_some_iff.1 hlast
    have hraw : p.raw = ⟨before⟩ ++ "/" := RawText.ext hbefore
    exact .inl ⟨⟨before⟩, hraw, congrArg (· ++ name) hraw⟩
  · exact .inr rfl

theorem components_of_raw_eq_empty {p : Path} (h : p.raw = "") : p.components = [] := by
  obtain ⟨raw⟩ := p
  cases h
  rfl

theorem components_mk_name {name : RawText} (h : IsName name) :
    (Path.mk name).components = [.normal name] := by
  rw [components_eq (RawText.pieces_of_noSlash h.noSlash), leading,
    isAbsolute_of_noSlash h.noSlash, if_neg Bool.false_ne_true, if_neg h.notCurrent,
    innerComponents_name h]
  rfl

/-- A path joined with a name begins where the path begins. -/
theorem isAbsolute_join (p : Path) {name : RawText} (h : IsName name) :
    (p.join name).isAbsolute = p.isAbsolute := by
  by_cases hp : p.raw = ""
  · have hjoin : p.join name = ⟨name⟩ := by rw [join, if_pos (.inr hp)]
    rw [hjoin, isAbsolute_of_noSlash h.noSlash, isAbsolute, hp]
    rfl
  · have hbegins (b : RawText) : (Path.mk (p.raw ++ b)).isAbsolute = p.isAbsolute :=
      isAbsolute_append hp b
    rcases raw_join h hp with ⟨before, hp', hraw⟩ | hraw
    · rw [← hp'] at hraw
      rw [← hbegins name, ← hraw]
    · rw [RawText.append_assoc] at hraw
      rw [← hbegins ("/" ++ name), ← hraw]

/-- A path joined with a name has the name as its last component. -/
theorem components_join (p : Path) {name : RawText} (h : IsName name) :
    (p.join name).components = p.components ++ [.normal name] := by
  by_cases hp : p.raw = ""
  · have hjoin : p.join name = ⟨name⟩ := by rw [join, if_pos (.inr hp)]
    rw [hjoin, components_mk_name h, components_of_raw_eq_empty hp]
    rfl
  · have hleading (first : RawText) : leading (p.join name) first = leading p first := by
      rw [leading, isAbsolute_join p h, leading]
    rcases raw_join h hp with ⟨before, hp', hraw⟩ | hraw
    · obtain ⟨first, rest, hpieces⟩ := before.exists_pieces
      have hbefore : p.raw.pieces = first :: (rest ++ [("" : RawText)]) := by
        have hsplit := RawText.pieces_append_slash before ""
        rw [RawText.append_empty, ← hp'] at hsplit
        rw [hsplit, hpieces]
        rfl
      have hafter : (p.join name).raw.pieces = first :: (rest ++ [name]) := by
        rw [hraw, RawText.pieces_append_slash, hpieces, RawText.pieces_of_noSlash h.noSlash]
        rfl
      rw [components_eq hafter, components_eq hbefore, hleading, innerComponents_append,
        innerComponents_append, innerComponents_name h, List.append_assoc]
      simp [innerComponents]
    · obtain ⟨first, rest, hpieces⟩ := p.raw.exists_pieces
      have hafter : (p.join name).raw.pieces = first :: (rest ++ [name]) := by
        rw [hraw, RawText.pieces_append_slash, hpieces, RawText.pieces_of_noSlash h.noSlash]
        rfl
      rw [components_eq hafter, components_eq hpieces, hleading, innerComponents_append,
        innerComponents_name h, List.append_assoc]

theorem raw_join_ne_empty (p : Path) {name : RawText} (h : IsName name) :
    (p.join name).raw ≠ "" := by
  intro hempty
  have hcomponents := components_join p h
  rw [components_of_raw_eq_empty hempty] at hcomponents
  exact List.cons_ne_nil _ _ (List.append_eq_nil_iff.1 hcomponents.symm).2

theorem components_join_ne_nil (p : Path) {name : RawText} (h : IsName name) :
    (p.join name).components ≠ [] := by
  rw [components_join p h]
  exact List.append_ne_nil_of_right_ne_nil _ (List.cons_ne_nil _ _)

theorem fileName?_join (p : Path) {name : RawText} (h : IsName name) :
    (p.join name).fileName? = some name := by
  rw [fileName?, components_join p h, List.getLast?_concat]

theorem extension?_join (p : Path) {name : RawText} (h : IsName name) :
    (p.join name).extension? = (cutName name).2 := by
  rw [extension?, fileName?_join p h, Option.bind_some]

/-- Names are the components of what they are joined to. -/
theorem innerComponents_names {names : List RawText} (h : ∀ name ∈ names, IsName name) :
    innerComponents names = names.map .normal := by
  induction names with
  | nil => rfl
  | cons name names ih =>
    rw [← List.singleton_append, innerComponents_append, innerComponents_name (h name (.head _)),
      ih fun n hn => h n (.tail _ hn)]
    rfl

theorem components_joined {names : List RawText} (h : ∀ name ∈ names, IsName name)
    (hne : names ≠ []) : (Path.mk (RawText.joined names)).components = names.map .normal := by
  obtain ⟨name, rest, rfl⟩ := List.exists_cons_of_ne_nil hne
  have hname := h name (.head _)
  have hpieces := RawText.pieces_joined hne fun n hn => (h n hn).noSlash
  have hrelative : (Path.mk (RawText.joined (name :: rest))).isAbsolute = false := by
    cases rest with
    | nil =>
      rw [RawText.joined_singleton]
      exact isAbsolute_of_noSlash hname.noSlash
    | cons next rest =>
      rw [RawText.joined_cons_cons, RawText.append_assoc, isAbsolute_append hname.notEmpty]
      exact isAbsolute_of_noSlash hname.noSlash
  rw [components_eq (p := ⟨RawText.joined (name :: rest)⟩) hpieces, leading, hrelative,
    if_neg Bool.false_ne_true,
    if_neg hname.notCurrent, ← innerComponents_append, List.singleton_append]
  exact innerComponents_names h

/-- The components of a path with a name are names. -/
theorem isName_of_mem_components {p : Path} {name : RawText} (h : .normal name ∈ p.components) :
    IsName name := by
  obtain ⟨first, rest, hpieces⟩ := p.raw.exists_pieces
  have hinner {names : List RawText} (hsub : ∀ piece ∈ names, piece ∈ p.raw.pieces)
      (hmem : .normal name ∈ innerComponents names) : IsName name := by
    obtain ⟨piece, hpiece, heq⟩ := List.mem_filterMap.1 hmem
    split at heq
    · cases heq
    · next hplain =>
      split at heq
      · cases heq
      · next hup =>
        cases heq
        exact ⟨fun h => hplain (.inl h), fun h => hplain (.inr h), hup,
          RawText.noSlash_of_mem_pieces (hsub _ hpiece)⟩
  rw [components_eq hpieces] at h
  rcases List.mem_append.1 h with h | h
  · unfold leading at h
    split at h
    · cases List.mem_singleton.1 h
    · split at h
      · cases List.mem_singleton.1 h
      · refine hinner (fun piece hpiece => ?_) h
        rw [List.mem_singleton.1 hpiece, hpieces]
        exact .head _
  · refine hinner (fun piece hpiece => ?_) h
    rw [hpieces]
    exact .tail _ hpiece

theorem isName_of_fileName? {p : Path} {name : RawText} (h : p.fileName? = some name) :
    IsName name := by
  unfold fileName? at h
  split at h
  · next hlast =>
    cases h
    exact isName_of_mem_components (List.mem_of_getLast? hlast)
  · cases h

theorem mem_of_mem_cutName {name : RawText} {b : UInt8} (h : b ∈ (cutName name).1.bytes) :
    b ∈ name.bytes := by
  unfold cutName at h
  split at h
  · exact h
  · next extension stem hcut =>
    split at h
    · exact h
    · obtain ⟨hname, -⟩ := Text.cutAt?_eq_some_iff.1 hcut
      rw [← List.mem_reverse, hname]
      exact List.mem_append_right _ (.tail _ (List.mem_reverse.1 h))

/-- A name has an extension if it ends in a dot and the extension and something stands in front. -/
theorem cutName_snd_eq_some_iff {name extension : RawText} (hne : extension ≠ "")
    (hdot : RawText.dot ∉ extension.bytes) :
    (cutName name).2 = some extension ↔
      ∃ stem : RawText, stem ≠ "" ∧ name = stem ++ ("." ++ extension) := by
  constructor
  · intro h
    unfold cutName at h
    split at h
    · cases h
    · next reversed stem hcut =>
      split at h
      · cases h
      · next hplain =>
        obtain ⟨hname, -⟩ := Text.cutAt?_eq_some_iff.1 hcut
        refine ⟨⟨stem.reverse⟩, fun hempty => hplain (.inr ?_), RawText.ext ?_⟩
        · rw [List.reverse_eq_nil_iff.1 (congrArg RawText.bytes hempty)]
          rfl
        · rw [← Option.some.inj h, ← List.reverse_inj, hname]
          simp [RawText.dot, RawText.bytes_ofString, String.utf8EncodeChar]
  · rintro ⟨stem, hstem, rfl⟩
    have hreverse : (stem ++ ("." ++ extension)).bytes.reverse =
        extension.bytes.reverse ++ RawText.dot :: stem.bytes.reverse := by
      simp [RawText.dot, RawText.bytes_ofString, String.utf8EncodeChar]
    have hcut : Text.cutAt? RawText.dot (stem ++ ("." ++ extension)).bytes.reverse =
        some (extension.bytes.reverse, stem.bytes.reverse) :=
      Text.cutAt?_eq_some_iff.2 ⟨hreverse, fun hmem => hdot (List.mem_reverse.1 hmem)⟩
    have hplain : ¬(stem ++ ("." ++ extension) = ".." ∨ stem.bytes.reverse.isEmpty = true) := by
      rintro (hup | hempty)
      · rw [hup] at hreverse
        rcases List.eq_nil_or_concat extension.bytes with hnil | ⟨init, last, hlast⟩
        · exact hne (RawText.ext hnil)
        · rw [hlast, List.concat_eq_append, List.reverse_concat] at hreverse
          have hdots : RawText.dot = last := (List.cons.inj hreverse).1
          exact hdot (by rw [hlast, hdots]; simp)
      · rw [List.isEmpty_iff, List.reverse_eq_nil_iff] at hempty
        exact hstem (RawText.ext hempty)
    unfold cutName
    rw [hcut]
    dsimp only
    rw [if_neg hplain]
    simp

/-! ## Paths from components -/

/-- A component inside of a path. -/
inductive Inner : Component → Prop where
  | up : Inner .up
  | normal {name : RawText} (h : IsName name) : Inner (.normal name)

theorem Inner.noSlash {c : Component} (h : Inner c) : RawText.slash ∉ c.raw.bytes := by
  cases h with
  | up => decide
  | normal h => exact h.noSlash

/-- Components as those of a path are: it begins at the root, with a dot or with its first name. -/
structure Shaped (absolute : Bool) (cs lead inner : List Component) : Prop where
  eq : cs = lead ++ inner
  lead : lead = [] ∧ absolute = false ∨ lead = [.root] ∧ absolute = true ∨
    lead = [.current] ∧ absolute = false
  inner : ∀ c ∈ inner, Inner c

theorem exists_shaped (p : Path) : ∃ lead inner, Shaped p.isAbsolute p.components lead inner := by
  obtain ⟨first, rest, hpieces⟩ := p.raw.exists_pieces
  have hslash : ∀ piece ∈ first :: rest, RawText.slash ∉ piece.bytes := fun piece hpiece =>
    RawText.noSlash_of_mem_pieces (hpieces ▸ hpiece)
  have hinner {names : List RawText} (hnames : ∀ name ∈ names, RawText.slash ∉ name.bytes) :
      ∀ c ∈ innerComponents names, Inner c := by
    intro c hc
    obtain ⟨name, hname, heq⟩ := List.mem_filterMap.1 hc
    split at heq
    · cases heq
    · next hplain =>
      split at heq
      · cases heq
        exact .up
      · next hup =>
        cases heq
        exact .normal ⟨fun h => hplain (.inl h), fun h => hplain (.inr h), hup, hnames name hname⟩
  have hrest := hinner fun name hname => hslash name (.tail _ hname)
  rw [components_eq hpieces, leading]
  split
  · next habsolute => exact ⟨_, _, rfl, .inr (.inl ⟨rfl, habsolute⟩), hrest⟩
  · next habsolute =>
    have hrelative : p.isAbsolute = false := Bool.eq_false_iff.2 habsolute
    split
    · exact ⟨_, _, rfl, .inr (.inr ⟨rfl, hrelative⟩), hrest⟩
    · refine ⟨[], _, rfl, .inl ⟨rfl, hrelative⟩, fun c hc => ?_⟩
      rcases List.mem_append.1 hc with hc | hc
      · refine hinner (fun name hname => ?_) c hc
        rw [List.mem_singleton.1 hname]
        exact hslash first (.head _)
      · exact hrest c hc

theorem innerComponents_raws {inner : List Component} (h : ∀ c ∈ inner, Inner c) :
    innerComponents (inner.map Component.raw) = inner := by
  induction inner with
  | nil => rfl
  | cons c inner ih =>
    have hfirst : innerComponents [c.raw] = [c] := by
      cases h c (.head _) with
      | up => rfl
      | normal hname => exact innerComponents_name hname
    rw [List.map_cons, ← List.singleton_append, innerComponents_append, hfirst,
      ih fun d hd => h d (.tail _ hd), List.singleton_append]

/-- The components of texts with slashes between them, and where they begin. -/
theorem components_joined_cons {first : RawText} {rest : List RawText}
    (h : ∀ r ∈ first :: rest, RawText.slash ∉ r.bytes) :
    (Path.mk (RawText.joined (first :: rest))).components =
      leading ⟨RawText.joined (first :: rest)⟩ first ++ innerComponents rest :=
  components_eq (p := ⟨RawText.joined (first :: rest)⟩)
    (RawText.pieces_joined (List.cons_ne_nil _ _) h)

theorem isAbsolute_joined_cons {first : RawText} (hne : first ≠ "")
    (hslash : RawText.slash ∉ first.bytes) (rest : List RawText) :
    (Path.mk (RawText.joined (first :: rest))).isAbsolute = false := by
  cases rest with
  | nil =>
    rw [RawText.joined_singleton]
    exact isAbsolute_of_noSlash hslash
  | cons next rest =>
    rw [RawText.joined_cons_cons, RawText.append_assoc, isAbsolute_append hne]
    exact isAbsolute_of_noSlash hslash

theorem noSlash_raws {inner : List Component} (h : ∀ c ∈ inner, Inner c) {first : RawText}
    (hfirst : RawText.slash ∉ first.bytes) :
    ∀ r ∈ first :: inner.map Component.raw, RawText.slash ∉ r.bytes := by
  intro r hr
  rcases List.mem_cons.1 hr with rfl | hr
  · exact hfirst
  · obtain ⟨c, hc, rfl⟩ := List.mem_map.1 hr
    exact (h c hc).noSlash

theorem ofComponents_inner {inner : List Component} (h : ∀ c ∈ inner, Inner c) :
    (ofComponents inner).components = inner ∧ (ofComponents inner).isAbsolute = false := by
  cases inner with
  | nil => exact ⟨rfl, rfl⟩
  | cons c inner =>
    have hc := h c (.head _)
    have hrest : ∀ d ∈ inner, Inner d := fun d hd => h d (.tail _ hd)
    have hmade : Path.ofComponents (c :: inner) =
        ⟨RawText.joined (c.raw :: inner.map Component.raw)⟩ := by
      cases hc <;> rfl
    have hne : c.raw ≠ "" ∧ c.raw ≠ "." := by
      cases hc with
      | up => decide
      | normal hname => exact ⟨hname.notEmpty, hname.notCurrent⟩
    have hrelative := isAbsolute_joined_cons hne.1 hc.noSlash (inner.map Component.raw)
    rw [hmade, components_joined_cons (noSlash_raws hrest hc.noSlash), leading, hrelative,
      if_neg Bool.false_ne_true, if_neg hne.2, ← innerComponents_append]
    exact ⟨innerComponents_raws h, rfl⟩

theorem ofComponents_root {inner : List Component} (h : ∀ c ∈ inner, Inner c) :
    (ofComponents (.root :: inner)).components = .root :: inner ∧
      (ofComponents (.root :: inner)).isAbsolute = true := by
  cases inner with
  | nil => exact ⟨rfl, rfl⟩
  | cons c inner =>
    have hmade : Path.ofComponents (.root :: c :: inner) =
        ⟨RawText.joined ("" :: (c :: inner).map Component.raw)⟩ := rfl
    have habsolute : (Path.mk (RawText.joined ("" :: (c :: inner).map Component.raw))).isAbsolute =
        true := rfl
    rw [hmade, components_joined_cons (noSlash_raws h (by decide)), leading, habsolute, if_pos rfl,
      innerComponents_raws h]
    exact ⟨rfl, rfl⟩

theorem ofComponents_current {inner : List Component} (h : ∀ c ∈ inner, Inner c) :
    (ofComponents (.current :: inner)).components = .current :: inner ∧
      (ofComponents (.current :: inner)).isAbsolute = false := by
  have hmade : Path.ofComponents (.current :: inner) =
      ⟨RawText.joined ("." :: inner.map Component.raw)⟩ := by
    cases inner <;> rfl
  have hrelative : (Path.mk (RawText.joined ("." :: inner.map Component.raw))).isAbsolute = false :=
    isAbsolute_joined_cons (by decide) (by decide) _
  rw [hmade, components_joined_cons (noSlash_raws h (by decide)), leading, hrelative,
    if_neg Bool.false_ne_true, if_pos rfl, innerComponents_raws h]
  exact ⟨rfl, rfl⟩

/-- The path of components has those components. -/
theorem Shaped.ofComponents {absolute : Bool} {cs lead inner : List Component}
    (h : Shaped absolute cs lead inner) :
    (ofComponents cs).components = cs ∧ (ofComponents cs).isAbsolute = absolute := by
  obtain ⟨rfl, hlead, hinner⟩ := h
  rcases hlead with ⟨rfl, rfl⟩ | ⟨rfl, rfl⟩ | ⟨rfl, rfl⟩
  · exact ofComponents_inner hinner
  · exact ofComponents_root hinner
  · exact ofComponents_current hinner

/-- The components of a path make a path with the same components. -/
theorem components_ofComponents (p : Path) :
    (ofComponents p.components).components = p.components ∧
      (ofComponents p.components).isAbsolute = p.isAbsolute := by
  obtain ⟨lead, inner, hshaped⟩ := p.exists_shaped
  exact hshaped.ofComponents

/-- A path has its last component behind those of the path in front of it, and begins where that
does; the last component of a path is not the root, and a dot only if it is the only one. -/
theorem components_parent (p : Path) :
    p.parent.components = p.components.dropLast ∧
      (p.components.dropLast ≠ [] → p.parent.isAbsolute = p.isAbsolute ∧
        ∃ c, Inner c ∧ p.components = p.parent.components ++ [c]) := by
  obtain ⟨lead, inner, hshaped⟩ := p.exists_shaped
  rw [parent, parentComponents]
  rcases List.eq_nil_or_concat inner with rfl | ⟨init, c, rfl⟩
  · have hnil : p.components.dropLast = [] := by
      rw [hshaped.eq, List.append_nil]
      rcases hshaped.lead with ⟨rfl, -⟩ | ⟨rfl, -⟩ | ⟨rfl, -⟩ <;> rfl
    rw [hnil]
    exact ⟨rfl, fun hne => absurd rfl hne⟩
  · rw [List.concat_eq_append] at hshaped
    have heq : p.components = lead ++ init ++ [c] := by rw [hshaped.eq, List.append_assoc]
    have hinit : Shaped p.isAbsolute p.components.dropLast lead init := by
      refine ⟨?_, hshaped.lead, fun d hd => hshaped.inner d (List.mem_append_left _ hd)⟩
      rw [heq, List.dropLast_concat]
    obtain ⟨hcomponents, habsolute⟩ := hinit.ofComponents
    refine ⟨hcomponents, fun _ => ⟨habsolute, c, hshaped.inner c (by simp), ?_⟩⟩
    rw [hcomponents, hinit.eq, heq]

/-! ### The order of paths -/

theorem le_iff {a b : Path} : a.le b = true ↔ a.key ≤ b.key := by
  rw [le, Bool.not_eq_true', decide_eq_false_iff_not, List.not_lt]

theorem le_trans {a b c : Path} (h : a.le b = true) (h' : b.le c = true) : a.le c = true :=
  le_iff.2 (List.le_trans (le_iff.1 h) (le_iff.1 h'))

theorem le_total (a b : Path) : (a.le b || b.le a) = true := by
  rw [Bool.or_eq_true, le_iff, le_iff]
  exact List.le_total _ _

/-! ### Spellings of one path -/

theorem same_iff {p q : Path} : p.same q = true ↔ p.components = q.components := beq_iff_eq

theorem same_refl (p : Path) : p.same p = true := same_iff.2 rfl

theorem same_comm (p q : Path) : p.same q = q.same p :=
  Bool.eq_iff_iff.2 (same_iff.trans (eq_comm.trans same_iff.symm))

/-- Spellings of one path are the same as the same paths. -/
theorem same_congr {p q : Path} (h : p.same q = true) (other : Path) :
    p.same other = q.same other := by
  rw [same, same, same_iff.1 h]

theorem Component.key_injective {c d : Component} (h : c.key = d.key) : c = d := by
  have hhead : c.key.bytes.head? = d.key.bytes.head? := congrArg (·.bytes.head?) h
  cases c with
  | normal name =>
    cases d with
    | normal other => rw [(RawText.append_right_inj "3").1 h]
    | root => cases hhead
    | current => cases hhead
    | up => cases hhead
  | root => cases d <;> first | rfl | cases hhead
  | current => cases d <;> first | rfl | cases hhead
  | up => cases d <;> first | rfl | cases hhead

theorem same_iff_key {p q : Path} : p.same q = true ↔ p.key = q.key := by
  rw [same_iff, key, key, List.map_inj_right fun _ _ => Component.key_injective]

/-- Of two paths neither comes after the other one only if they have the same components. -/
theorem same_of_le {p q : Path} (h : p.le q = true) (h' : q.le p = true) : p.same q = true :=
  same_iff_key.2 (List.le_antisymm (le_iff.1 h) (le_iff.1 h'))

end Path

end Recast
