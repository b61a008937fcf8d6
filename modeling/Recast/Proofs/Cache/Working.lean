/-
  Proofs/Cache/Working.lean --- stores that do what they are asked to.

  A store `Works` when it refuses nothing and, if it keeps its values in a directory, when the
  directory is there and nothing but files stands where values go.  Then every operation succeeds
  and goes on working, and it changes the value of its own key only, as far as digests tell keys
  apart.
-/
import Recast.Proofs.Cache.Directory
import Recast.Proofs.Files.Remove

set_option autoImplicit false

namespace Recast

/-! ## Sizes of digests -/

namespace Digest

theorem size_absorbAll {state : Array UInt32} (h : state.size = 8) (ws : List UInt32) :
    (absorbAll state ws).size = 8 := by
  fun_induction absorbAll state ws with
  | case1 state ws _ => exact h
  | case2 state ws _ ih => exact ih (by simp [absorb, List.range, List.range.loop])

theorem length_sum (message : List UInt8) : (sum message).length = 32 := by
  have hwords (ws : List UInt32) : (ws.flatMap wordBytes).length = 4 * ws.length := by
    induction ws with
    | nil => rfl
    | cons w ws ih =>
      rw [List.flatMap_cons, List.length_append, ih, List.length_cons]
      simp only [wordBytes, List.length_cons, List.length_nil]
      omega
  rw [sum, hwords, Array.length_toList, size_absorbAll (by decide)]

theorem length_hex (message : String) : (ofString message).hex.toList.length = 64 := by
  have hbytes (bytes : List UInt8) : (bytes.flatMap hexByte).length = 2 * bytes.length := by
    induction bytes with
    | nil => rfl
    | cons b bytes ih =>
      rw [List.flatMap_cons, List.length_append, ih, List.length_cons]
      simp only [hexByte, List.length_cons, List.length_nil]
      omega
  rw [ofString, ofBytes, ofList, String.toList_ofList, hbytes, length_sum]

theorem utf8Size_of_isHex {c : Char} (h : isHex c = true) : c.utf8Size = 1 := by
  simp only [isHex, Bool.or_eq_true, Bool.and_eq_true, decide_eq_true_eq] at h
  have hascii : c.val ≤ 0x7f := by
    rcases h with ⟨-, h⟩ | ⟨-, h⟩
    · exact UInt32.le_trans h (by decide)
    · exact UInt32.le_trans h (by decide)
  exact if_pos hascii

end Digest

namespace Cache

theorem length_keyName (key : String) :
    (keyName key : RawText).bytes.length ≤ Files.maxNameSize := by
  have hchars (cs : List Char) (h : ∀ c ∈ cs, Digest.isHex c = true) :
      (String.ofList cs).utf8ByteSize = cs.length := by
    induction cs with
    | nil => rfl
    | cons c cs ih =>
      rw [String.ofList_cons, String.utf8ByteSize_append, String.utf8ByteSize_singleton,
        ih fun d hd => h d (.tail _ hd), Digest.utf8Size_of_isHex (h c (.head _)), List.length_cons,
        Nat.add_comm]
  have hhex := hchars (Digest.ofString key).hex.toList fun c hc => Digest.isHex_of_mem_hex hc
  have hjson : ".json".utf8ByteSize = 5 := by decide
  rw [String.ofList_toList, Digest.length_hex] at hhex
  rw [RawText.length_bytes_ofString, keyName, String.utf8ByteSize_append, hhex, hjson]
  decide

/-- The files of keys have the ending by which a store knows its values. -/
theorem cutName_keyName (key : String) :
    (Path.cutName (keyName key)).2 = some (RawText.ofString "json") := by
  refine (Path.cutName_snd_eq_some_iff (by decide) (by decide)).2
    ⟨(Digest.ofString key).hex, ?_, RawText.ofString_append _ _⟩
  intro hempty
  have hlength := Digest.length_hex key
  rw [RawText.ofString_injective hempty] at hlength
  cases hlength

end Cache

namespace Cache

/-! ## Values of other keys -/

namespace Store

/-- Whether a store tells two keys apart, unless they are the same: in a directory it is their
digests that have to. -/
def TellsApart (s : Store) (key other : String) : Prop :=
  ∀ path, s.medium = .directory path → Digest.ofString key = Digest.ofString other → key = other

/-- What is held for a key in a directory is what stands there under its name. -/
theorem held?_join {name : String} {refused : List Call} {path : Path} {files : Files}
    {place : List RawText} (h : files.find path = .ok (place, .directory)) (key : String) :
    (Store.mk name (.directory path) refused).held? files key =
      match files.node? (place ++ [(keyName key : RawText)]) with
      | none => .ok none
      | some (.file content) => .ok (some content)
      | some .directory => .error (.file .isADirectory) := by
  have hfind := Files.find_join h (isName_keyName key) (length_keyName key)
  have hpath : path.join (keyName key) = keyPath path key := rfl
  rw [hpath] at hfind
  unfold held? Files.read
  dsimp only
  rw [hfind]
  cases hnode : files.node? (place ++ [(keyName key : RawText)]) with
  | none => rfl
  | some node => cases node <;> rfl

/-- A value that is put leaves what is held for other keys as it was, as far as the store tells keys
apart. -/
theorem held?_put_of_ne {s t : Store} {f g : Files} {key other : String} {value : ByteArray}
    (h : s.put f key value = .ok (t, g)) (hapart : s.TellsApart key other) (hne : key ≠ other) :
    t.held? g other = s.held? f other := by
  obtain ⟨name, medium, refused⟩ := s
  cases medium with
  | memory values =>
    obtain ⟨t', hput, hall⟩ := held?_memory_put name refused values f key other value
    rw [hput] at h
    cases h
    rw [hall, if_neg fun heq => hne heq.symm]
    rfl
  | directory path =>
    obtain ⟨rfl, hrequire, hreplace⟩ := put_directory.1 h
    obtain ⟨place, hfind⟩ := Files.find_of_requireDirectory hrequire
    obtain ⟨q, htarget, -, hnode, hafter⟩ := Files.replace_eq_ok.1 hreplace
    have hq : q = place ++ [(keyName key : RawText)] := by
      rw [keyPath, ← keyName,
        Files.target_join hfind (isName_keyName key) (length_keyName key)] at htarget
      cases htarget
      rfl
    have hother : place ++ [(keyName other : RawText)] ≠ q := by
      rw [hq]
      exact place_keyName_ne place (mt (hapart path rfl) hne)
    rw [held?_join hfind, held?_join ((Files.writes_replace hreplace).find_directory hfind), hafter,
      Files.node?_put_file hnode, if_neg hother]

theorem get_put_of_ne {s t : Store} {f g : Files} {key other : String} {value : ByteArray}
    (h : s.put f key value = .ok (t, g)) (hapart : s.TellsApart key other) (hne : key ≠ other) :
    t.get g other = s.get f other := by
  rw [get, get, permit, permit, refused_of_put h, held?_put_of_ne h hapart hne]

end Store

/-! ## Values in a directory -/

/-- A directory that values can be kept in: nothing with their ending is a directory itself. -/
structure ValueDirectory (files : Files) (path : Path) (place : List RawText) : Prop where
  wellFormed : files.WellFormed
  found : files.find path = .ok (place, .directory)
  values : ∀ name : RawText, (Path.cutName name).2 = some (RawText.ofString "json") →
    files.node? (place ++ [name]) ≠ some .directory

/-- What a file holds. -/
def contentOf? : Option Files.Node → Option ByteArray
  | some (.file content) => some content
  | _ => none

namespace ValueDirectory

variable {files : Files} {path : Path} {place : List RawText}

theorem not_directory (h : ValueDirectory files path place) (key : String) :
    files.node? (place ++ [(keyName key : RawText)]) ≠ some .directory :=
  h.values _ (cutName_keyName key)

/-- A change that leaves the directories alone. -/
theorem of_same_directories (h : ValueDirectory files path place) {g : Files}
    (hwellFormed : g.WellFormed) (hhere : g.here = files.here)
    (hdirs : ∀ q, g.node? q = some .directory ↔ files.node? q = some .directory) :
    ValueDirectory g path place := by
  obtain ⟨htarget, hnode, hname⟩ := Files.find_eq_ok.1 h.found
  have htarget' := Files.target_mono hhere (fun q => (hdirs q).2) htarget
  refine ⟨hwellFormed, Files.find_eq_ok.2 ⟨htarget', (hdirs place).2 hnode, hname⟩, ?_⟩
  intro name hjson hdir
  exact h.values name hjson ((hdirs _).1 hdir)

theorem find_keyPath (h : ValueDirectory files path place) (key : String) :
    files.find (Store.keyPath path key) =
      match files.node? (place ++ [(keyName key : RawText)]) with
      | none => .error .notFound
      | some node => .ok (place ++ [(keyName key : RawText)], node) :=
  Files.find_join h.found (isName_keyName key) (length_keyName key)

theorem held? (h : ValueDirectory files path place) (name : String) (refused : List Call)
    (key : String) :
    (Store.mk name (.directory path) refused).held? files key =
      .ok (contentOf? (files.node? (place ++ [(keyName key : RawText)]))) := by
  have hnot := h.not_directory key
  have hfind := h.find_keyPath key
  unfold Store.held? Files.read
  dsimp only
  rw [hfind]
  cases hnode : files.node? (place ++ [(keyName key : RawText)]) with
  | none => rfl
  | some node =>
    cases node with
    | file content => rfl
    | directory => exact absurd hnode hnot

theorem put (h : ValueDirectory files path place) (key : String) (value : ByteArray) :
    files.replace (Store.keyPath path key) value =
        .ok (files.put (place ++ [(keyName key : RawText)]) (.file value)) ∧
      ValueDirectory (files.put (place ++ [(keyName key : RawText)]) (.file value)) path place := by
  have hnot := h.not_directory key
  have htarget : files.target (Store.keyPath path key) = .ok (place ++ [(keyName key : RawText)]) :=
    Files.target_join h.found (isName_keyName key) (length_keyName key)
  have hname : Files.namesDirectory (Store.keyPath path key) = false :=
    Files.namesDirectory_join path (isName_keyName key)
  have hwellFormed := h.wellFormed.put (h.wellFormed.reached_target htarget) hnot (.file value)
  refine ⟨Files.replace_eq_ok.2 ⟨_, htarget, hname, hnot, rfl⟩, ?_⟩
  refine h.of_same_directories hwellFormed rfl fun q => ?_
  rw [Files.node?_put_file hnot]
  split
  · next heq => exact iff_of_false nofun (heq ▸ hnot)
  · exact .rfl

theorem without (h : ValueDirectory files path place) {name : RawText} {content : ByteArray}
    (hnode : files.node? (place ++ [name]) = some (.file content)) :
    ValueDirectory (files.without (place ++ [name])) path place := by
  refine h.of_same_directories (h.wellFormed.without hnode) rfl fun q => ?_
  rw [Files.node?_without files (by simp)]
  split
  · next heq => exact iff_of_false nofun (by rw [heq, hnode]; exact nofun)
  · exact .rfl

/-! #### Operations of a store that keeps its values there -/

theorem set (h : ValueDirectory files path place) (name key : String) (value : ByteArray) :
    (Store.mk name (.directory path) []).set files key value =
      .ok (⟨name, .directory path, []⟩,
        files.put (place ++ [(keyName key : RawText)]) (.file value)) := by
  refine Store.put_directory.2 ⟨rfl, ?_, (h.put key value).1⟩
  rw [Files.requireDirectory, h.found]
  rfl

theorem delete_of_none (h : ValueDirectory files path place) (name : String) {key : String}
    (hnode : files.node? (place ++ [(keyName key : RawText)]) = none) :
    (Store.mk name (.directory path) []).delete files key =
      .ok (⟨name, .directory path, []⟩, files) := by
  have hremove : files.removeFile (Store.keyPath path key) = .error .notFound := by
    rw [Files.removeFile, h.find_keyPath, hnode]
    rfl
  unfold Store.delete
  dsimp only
  rw [hremove]
  rfl

theorem delete_of_file (h : ValueDirectory files path place) (name : String) {key : String}
    {content : ByteArray}
    (hnode : files.node? (place ++ [(keyName key : RawText)]) = some (.file content)) :
    (Store.mk name (.directory path) []).delete files key =
      .ok (⟨name, .directory path, []⟩,
        files.without (place ++ [(keyName key : RawText)])) := by
  have hremove := Files.removeFile_join h.found (isName_keyName key) (length_keyName key) hnode
  unfold Store.delete
  dsimp only
  rw [Store.keyPath, ← keyName, hremove]
  rfl

/-- Something with the ending of values in the directory is a file with a name that fits. -/
theorem exists_file (h : ValueDirectory files path place) {name : RawText}
    (hjson : (Path.cutName name).2 = some (RawText.ofString "json"))
    (hnode : files.node? (place ++ [name]) ≠ none) :
    ∃ content, files.node? (place ++ [name]) = some (.file content) ∧ Path.IsName name ∧
      name.bytes.length ≤ Files.maxNameSize := by
  obtain ⟨hname, hsize⟩ :=
    (h.wellFormed.reached _ hnode).named name (List.mem_append_right place (.head _))
  cases hfile : files.node? (place ++ [name]) with
  | none => exact absurd hfile hnode
  | some node =>
    cases node with
    | file content => exact ⟨content, rfl, hname, hsize⟩
    | directory => exact absurd hfile (h.values name hjson)

/-- The files of values are removed one after the other. -/
theorem removeAll (h : ValueDirectory files path place) {names : List RawText}
    (hnodup : names.Nodup) (hnames : ∀ name ∈ names,
      (Path.cutName name).2 = some (RawText.ofString "json") ∧
        files.node? (place ++ [name]) ≠ none) :
    ∃ g, Store.removeAll files (names.map path.join) = (.ok (), g) ∧
      ValueDirectory g path place ∧
      ∀ name, g.node? (place ++ [name]) =
        if name ∈ names then none else files.node? (place ++ [name]) := by
  induction names generalizing files with
  | nil => exact ⟨files, rfl, h, fun name => by simp⟩
  | cons name names ih =>
    obtain ⟨hnot, hnodup⟩ := List.nodup_cons.1 hnodup
    obtain ⟨hjson, hnode⟩ := hnames name (.head _)
    obtain ⟨content, hfile, hname, hsize⟩ := h.exists_file hjson hnode
    have hwithout (other : RawText) : (files.without (place ++ [name])).node? (place ++ [other]) =
        if other = name then none else files.node? (place ++ [other]) := by
      rw [Files.node?_without files (by simp)]
      simp
    obtain ⟨g, hremove, hdirectory, hnodes⟩ := ih (h.without hfile) hnodup fun other hother => by
      have hne : other ≠ name := fun heq => hnot (heq ▸ hother)
      rw [hwithout, if_neg hne]
      exact hnames other (.tail _ hother)
    refine ⟨g, ?_, hdirectory, fun other => ?_⟩
    · rw [List.map_cons, Store.removeAll, Files.removeFile_join h.found hname hsize hfile]
      exact hremove
    · rw [hnodes, hwithout]
      by_cases hother : other ∈ names
      · simp [hother]
      · simp [hother]

/-- The files of values are those with the ending, each of them once. -/
theorem exists_valueFiles (h : ValueDirectory files path place) :
    ∃ names : List RawText, Store.valueFiles files path = .ok (names.map path.join) ∧
      names.Nodup ∧ ∀ name, name ∈ names ↔
        (Path.cutName name).2 = some (RawText.ofString "json") ∧
          files.node? (place ++ [name]) ≠ none := by
  obtain ⟨names, hlist, hnodup, hmem⟩ := Files.exists_list h.found
  refine ⟨names.filter fun name => (Path.cutName name).2 == some (RawText.ofString "json"), ?_,
    hnodup.filter _, fun name => ?_⟩
  · rw [Store.valueFiles, hlist]
    refine congrArg Except.ok ?_
    rw [List.filter_map]
    refine congrArg _ (List.filter_congr fun other hother => ?_)
    have hreached := h.wellFormed.reached _ ((hmem other).1 hother)
    have hname := (hreached.named other (List.mem_append_right place (.head _))).1
    rw [Function.comp_apply, Path.extension?_join path hname]
  · rw [List.mem_filter, hmem, beq_iff_eq, and_comm]

/-- A directory is rid of all its values, and nothing else happens in it. -/
theorem clear (h : ValueDirectory files path place) (name : String) :
    ∃ (names : List RawText) (g : Files),
      Store.valueFiles files path = .ok (names.map path.join) ∧
      (Store.mk name (.directory path) []).clear files =
        (.ok names.length, ⟨name, .directory path, []⟩, g) ∧
      ValueDirectory g path place ∧ ∀ other, g.node? (place ++ [other]) =
        if (Path.cutName other).2 = some (RawText.ofString "json") then none
        else files.node? (place ++ [other]) := by
  obtain ⟨names, hvalues, hnodup, hmem⟩ := h.exists_valueFiles
  obtain ⟨g, hremove, hdirectory, hnodes⟩ := h.removeAll hnodup fun other => (hmem other).1
  refine ⟨names, g, hvalues, ?_, hdirectory, fun other => ?_⟩
  · have hpermit : (Store.mk name (.directory path) []).permit .clear = .ok () := rfl
    unfold Store.clear
    rw [hpermit]
    dsimp only
    rw [hvalues]
    dsimp only
    rw [hremove]
    simp [Except.map]
  · rw [hnodes]
    by_cases hjson : (Path.cutName other).2 = some (RawText.ofString "json")
    · rw [if_pos hjson, ite_eq_left_iff, hmem]
      exact fun hnot => not_not.1 fun hnode => hnot ⟨hjson, hnode⟩
    · rw [if_neg hjson, if_neg fun hother => hjson ((hmem other).1 hother).1]

end ValueDirectory

/-! ## Working stores -/

namespace Store

/-- A store that does what it is asked to. -/
def Works (s : Store) (files : Files) : Prop :=
  s.refused = [] ∧
    ∀ path, s.medium = .directory path → ∃ place, ValueDirectory files path place

/-- The value that a store holds. -/
def value? (s : Store) (files : Files) (key : String) : Option ByteArray :=
  (s.held? files key).toOption.join

/-- In memory all keys are told apart. -/
theorem tellsApart_memory (name : String) (refused : List Call)
    (values values' : Table String ByteArray) :
    (Store.mk name (.memory values) refused).TellsApart =
      (Store.mk name (.memory values') refused).TellsApart := by
  funext key other
  exact propext ⟨fun _ => nofun, fun _ => nofun⟩

namespace Works

variable {s : Store} {files : Files}

theorem held? (h : s.Works files) (key : String) :
    s.held? files key = .ok (s.value? files key) := by
  obtain ⟨name, medium, refused⟩ := s
  cases medium with
  | memory values => rfl
  | directory path =>
    obtain ⟨place, hdirectory⟩ := h.2 path rfl
    rw [value?, hdirectory.held?]
    rfl

theorem get (h : s.Works files) (key : String) : s.get files key = .ok (s.value? files key) := by
  rw [Store.get, permit, h.1]
  exact h.held? key

/-- A value is put, and the values of other keys stay. -/
theorem set (h : s.Works files) (key : String) (value : ByteArray) :
    ∃ t g, s.set files key value = .ok (t, g) ∧ t.Works g ∧ t.TellsApart = s.TellsApart ∧
      ∀ other, s.TellsApart key other →
        t.value? g other = if key = other then some value else s.value? files other := by
  obtain ⟨name, medium, refused⟩ := s
  obtain rfl : refused = [] := h.1
  cases medium with
  | memory values =>
    refine ⟨_, _, rfl, ⟨rfl, nofun⟩, tellsApart_memory .., fun other _ => ?_⟩
    simp only [value?, Store.held?, Table.get?_insert, eq_comm (a := other)]
    rfl
  | directory path =>
    obtain ⟨place, hdirectory⟩ := h.2 path rfl
    have hdirectory' := (hdirectory.put key value).2
    refine ⟨_, _, hdirectory.set name key value, ⟨rfl, fun p hp => ?_⟩, rfl, fun other hother => ?_⟩
    · cases hp
      exact ⟨place, hdirectory'⟩
    · rw [value?, value?, hdirectory'.held?, hdirectory.held?,
        Files.node?_put_file (hdirectory.not_directory key)]
      by_cases heq : key = other
      · simp [heq, contentOf?, Except.toOption]
      · rw [if_neg heq, if_neg (place_keyName_ne place (mt (hother path rfl) heq))]

/-- A value is removed, and the values of other keys stay. -/
theorem delete (h : s.Works files) (key : String) :
    ∃ t g, s.delete files key = .ok (t, g) ∧ t.Works g ∧ t.TellsApart = s.TellsApart ∧
      ∀ other, s.TellsApart key other →
        t.value? g other = if key = other then none else s.value? files other := by
  obtain ⟨name, medium, refused⟩ := s
  obtain rfl : refused = [] := h.1
  cases medium with
  | memory values =>
    refine ⟨_, _, rfl, ⟨rfl, nofun⟩, tellsApart_memory .., fun other _ => ?_⟩
    simp only [value?, Store.held?, Table.get?_erase, eq_comm (a := other)]
    rfl
  | directory path =>
    obtain ⟨place, hdirectory⟩ := h.2 path rfl
    cases hnode : files.node? (place ++ [(keyName key : RawText)]) with
    | none =>
      refine ⟨_, _, hdirectory.delete_of_none name hnode, h, rfl, fun other _ => ?_⟩
      split
      · next heq =>
        rw [value?, hdirectory.held?, ← heq, hnode]
        rfl
      · rfl
    | some node =>
      obtain ⟨content, hfile, -⟩ :=
        hdirectory.exists_file (cutName_keyName key) (hnode ▸ Option.some_ne_none _)
      have hdirectory' := hdirectory.without hfile
      refine ⟨_, _, hdirectory.delete_of_file name hfile, ⟨rfl, fun p hp => ?_⟩, rfl,
        fun other hother => ?_⟩
      · cases hp
        exact ⟨place, hdirectory'⟩
      · rw [value?, value?, hdirectory'.held?, hdirectory.held?,
          Files.node?_without files (by simp)]
        by_cases heq : key = other
        · simp [heq, contentOf?, Except.toOption]
        · rw [if_neg heq, if_neg (place_keyName_ne place (mt (hother path rfl) heq))]

/-- All values are removed. -/
theorem clear (h : s.Works files) :
    ∃ n t g, s.clear files = (.ok n, t, g) ∧ t.Works g ∧ t.TellsApart = s.TellsApart ∧
      ∀ key, t.value? g key = none := by
  obtain ⟨name, medium, refused⟩ := s
  obtain rfl : refused = [] := h.1
  cases medium with
  | memory values =>
    exact ⟨_, _, _, rfl, ⟨rfl, nofun⟩, tellsApart_memory .., fun key => rfl⟩
  | directory path =>
    obtain ⟨place, hdirectory⟩ := h.2 path rfl
    obtain ⟨names, g, -, hclear, hdirectory', hnodes⟩ := hdirectory.clear name
    refine ⟨names.length, _, g, hclear, ⟨rfl, fun p hp => ?_⟩, rfl, fun key => ?_⟩
    · cases hp
      exact ⟨place, hdirectory'⟩
    · rw [value?, hdirectory'.held?, hnodes, if_pos (cutName_keyName key)]
      rfl

end Works

end Store

/-! ## Working caches -/

/-- Files have the same key if their paths show as the same text. -/
theorem entryKey_inj {path other : Path} : entryKey path = entryKey other ↔ path.text = other.text :=
  String.append_right_inj "entry:"

@[simp] theorem entryKey_mk (s : String) : entryKey ⟨s⟩ = "entry:" ++ s := by
  rw [entryKey, Path.text_mk]

/-- What is changed in an entry is about the content that the change is about. -/
theorem digest_matching (digest : Digest) (known : Option Entry) :
    ((matching digest known).getD { digest }).digest = digest := by
  cases hmatching : matching digest known with
  | none => rfl
  | some e => exact of_decide_eq_true (Option.filter_eq_some_iff.1 hmatching).2

/-- A cache and its files once the store was given an entry for a file: it took it, or it failed and
everything is as it was. -/
def Offered (c : Cache) (files : Files) (path : Path) (e : Entry) (d : Cache) (g : Files) : Prop :=
  ∀ s, c.store = .ok s →
    match s.set files (entryKey path) e.encode with
    | .ok (t, changed) => d.store = .ok t ∧ g = changed
    | .error _ => d.store = .ok s ∧ g = files

theorem offered_update (c : Cache) (files : Files) (path : Path) (digest : Digest)
    (change : Entry → Entry) :
    Offered c files path (c.nextEntry files path digest change)
      (c.update files path digest change).1 (c.update files path digest change).2.1 := by
  intro s hs
  have hload := consulted_load c files path
  have hentry : { change ((matching digest (c.load files path).1).getD { digest }) with
      time := (c.load files path).2.1.now } = c.nextEntry files path digest change := by
    obtain ⟨⟨_, _, _, hc⟩, -⟩ := hload
    rw [hc]
    rfl
  unfold update
  rw [hs]
  dsimp only at hentry ⊢
  rw [hentry]
  cases s.set files (entryKey path) (c.nextEntry files path digest change).encode with
  | ok changed => exact ⟨rfl, rfl⟩
  | error e => exact ⟨(hload.trans (consulted_reportFailure _ e)).store.trans hs, rfl⟩

/-- Whether the digests of their keys tell two files apart, unless they are the same. -/
def ToldApart (path other : Path) : Prop :=
  Digest.ofString (entryKey path) = Digest.ofString (entryKey other) → path = other

/-- Paths that show as the same text have the same key. -/
theorem ToldApart.eq_of_text_eq {path other : Path} (h : ToldApart path other)
    (htext : path.text = other.text) : path = other :=
  h (congrArg _ (entryKey_inj.2 htext))

/-- The digests of the keys of two files are different. -/
theorem ofString_ne_ofString : Digest.ofString "entry:a.py" ≠ Digest.ofString "entry:b.py" := by
  decide +kernel

/-- Whether the store of a cache tells the keys of two files apart, unless they are the same. -/
def Separates (c : Cache) (path other : Path) : Prop :=
  ∀ s, c.store = .ok s → s.TellsApart (entryKey path) (entryKey other)

theorem ToldApart.separates {path other : Path} (h : ToldApart path other) (c : Cache) :
    c.Separates path other := fun _ _ _ _ heq => congrArg entryKey (h heq)

theorem separates_refl (c : Cache) (path : Path) : c.Separates path path := fun _ _ _ _ _ => rfl

theorem Separates.withStore {c : Cache} {s t : Store} {path other : Path}
    (h : c.Separates path other) (hstore : c.store = .ok s) (ht : t.TellsApart = s.TellsApart) :
    Separates { c with store := .ok t } path other := by
  rintro _ ⟨rfl⟩
  rw [ht]
  exact h s hstore

/-- A cache with a store that works. -/
def Working (c : Cache) (files : Files) : Prop := ∃ s, c.store = .ok s ∧ s.Works files

theorem remembers_of_works {c : Cache} {s : Store} {files : Files} (hstore : c.store = .ok s)
    (h : s.Works files) (path : Path) :
    c.remembers files path = (s.value? files (entryKey path)).bind Entry.decode? := by
  refine Option.ext fun e => ?_
  rw [remembers_eq_some, Option.bind_eq_some_iff]
  constructor
  · rintro ⟨t, bytes, ht, hget, hdecode⟩
    rw [hstore] at ht
    cases ht
    rw [h.get, Except.ok.injEq] at hget
    exact ⟨bytes, hget, hdecode⟩
  · rintro ⟨bytes, hvalue, hdecode⟩
    exact ⟨s, bytes, hstore, by rw [h.get, hvalue], hdecode⟩

namespace Working

variable {c : Cache} {files : Files}

/-- A store that works takes what it is given. -/
theorem remembers_of_offered (h : Working c files) {path : Path} {e : Entry} (hfits : e.Fits)
    {d : Cache} {g : Files} (hoffered : Offered c files path e d g) :
    d.remembers g path = some e := by
  obtain ⟨s, hstore, hworks⟩ := h
  obtain ⟨t, changed, hset, hworks', -, hvalues⟩ := hworks.set (entryKey path) e.encode
  have htaken := hoffered s hstore
  rw [hset] at htaken
  obtain ⟨hd, rfl⟩ := htaken
  rw [remembers_of_works hd hworks', hvalues _ fun _ _ _ => rfl, if_pos rfl, Option.bind_some,
    Entry.decode?_encode hfits]

theorem load (h : Working c files) (path : Path) : (c.load files path).2.1 = c := by
  obtain ⟨s, hstore, hworks⟩ := h
  unfold Cache.load
  rw [hstore]
  dsimp only
  rw [hworks.get]
  cases s.value? files (entryKey path) with
  | none => rfl
  | some bytes =>
    dsimp only
    split <;> rfl

/-- A working cache remembers an entry that its store is given, and nothing else changes. -/
theorem set (h : Working c files) (path : Path) {e : Entry} (hfits : e.Fits) :
    ∃ s t g, c.store = .ok s ∧ s.set files (entryKey path) e.encode = .ok (t, g) ∧
      Working { c with store := .ok t } g ∧
      (∀ p q, c.Separates p q → Separates { c with store := .ok t } p q) ∧
      ∀ other, c.Separates path other → remembers { c with store := .ok t } g other =
        if path.text = other.text then some e else c.remembers files other := by
  obtain ⟨s, hstore, hworks⟩ := h
  obtain ⟨t, g, hset, hworks', htells, hvalues⟩ := hworks.set (entryKey path) e.encode
  refine ⟨s, t, g, hstore, hset, ⟨t, rfl, hworks'⟩, fun p q h => h.withStore hstore htells,
    fun other hother => ?_⟩
  rw [remembers_of_works rfl hworks', hvalues _ (hother s hstore), remembers_of_works hstore hworks,
    apply_ite (Option.bind · Entry.decode?), Option.bind_some, Entry.decode?_encode hfits]
  simp only [entryKey_inj]

/-- A working cache remembers what it is given, and nothing else changes. -/
theorem update (h : Working c files) {path : Path} {digest : Digest} {change : Entry → Entry}
    (hfits : (c.nextEntry files path digest change).Fits) :
    ∃ t g log, c.update files path digest change = ({ c with store := .ok t }, g, log) ∧
      Working { c with store := .ok t } g ∧
      (∀ p q, c.Separates p q → Separates { c with store := .ok t } p q) ∧
      ∀ other, c.Separates path other → remembers { c with store := .ok t } g other =
        if path.text = other.text then some (c.nextEntry files path digest change)
        else c.remembers files other := by
  have hload := h.load path
  obtain ⟨s, t, g, hstore, hset, hworking, hseparates, hremembers⟩ := h.set path hfits
  refine ⟨t, g, (c.load files path).2.2, ?_, hworking, hseparates, hremembers⟩
  have hentry : { change ((matching digest (c.load files path).1).getD { digest }) with
      time := (c.load files path).2.1.now } = c.nextEntry files path digest change := by
    rw [hload]
    rfl
  unfold Cache.update
  rw [hstore]
  dsimp only at hentry ⊢
  rw [hentry, hset, hload]

/-- A translation that a working cache was given is found, unless everything is to be new. -/
theorem translation?_putTranslation (h : Working c files) (hforce : c.force = false)
    (path : Path) (digest : Digest) (translation : Translation)
    (hfits : (c.nextEntry files path digest
      fun e => { e with translation := some translation }).Fits) :
    ((c.putTranslation files path digest translation).1.translation?
      (c.putTranslation files path digest translation).2.1 path digest).1 = some translation := by
  obtain ⟨t, g, log, hput, -, -, hremembers⟩ := h.update hfits
  have hnext : (c.nextEntry files path digest
      fun e => { e with translation := some translation }).digest = digest :=
    digest_matching digest _
  unfold putTranslation
  rw [hput, fst_translation?, if_neg (by rw [hforce]; exact Bool.false_ne_true),
    hremembers path (separates_refl c path), if_pos rfl, matching, Option.filter_some,
    if_pos (decide_eq_true hnext)]
  rfl

/-- A working cache forgets a file and no other one. -/
theorem clearFile (h : Working c files) (path : Path) :
    ∃ t g log, c.clearFile files path = ({ c with store := .ok t }, g, log) ∧
      Working { c with store := .ok t } g ∧
      (∀ p q, c.Separates p q → Separates { c with store := .ok t } p q) ∧
      ∀ other, c.Separates path other → remembers { c with store := .ok t } g other =
        if path.text = other.text then none else c.remembers files other := by
  obtain ⟨s, hstore, hworks⟩ := h
  obtain ⟨t, g, hdelete, hworks', htells, hvalues⟩ := hworks.delete (entryKey path)
  refine ⟨t, g, [], ?_, ⟨t, rfl, hworks'⟩, fun p q h => h.withStore hstore htells,
    fun other hother => ?_⟩
  · unfold Cache.clearFile
    rw [hstore]
    dsimp only
    rw [hdelete]
  · rw [remembers_of_works rfl hworks', hvalues _ (hother s hstore),
      remembers_of_works hstore hworks, apply_ite (Option.bind · Entry.decode?), Option.bind_none]
    simp only [entryKey_inj]

/-- A working cache forgets everything. -/
theorem clear (h : Working c files) :
    ∃ n t g log, c.clear files = (n, { c with store := .ok t }, g, log) ∧
      Working { c with store := .ok t } g ∧
      (∀ p q, c.Separates p q → Separates { c with store := .ok t } p q) ∧
      ∀ other, remembers { c with store := .ok t } g other = none := by
  obtain ⟨s, hstore, hworks⟩ := h
  obtain ⟨n, t, g, hclear, hworks', htells, hvalues⟩ := hworks.clear
  refine ⟨n, t, g, [], ?_, ⟨t, rfl, hworks'⟩, fun p q h => h.withStore hstore htells,
    fun other => ?_⟩
  · unfold Cache.clear
    rw [hstore]
    dsimp only
    rw [hclear]
  · rw [remembers_of_works rfl hworks', hvalues, Option.bind_none]

end Working

/-! ## New stores -/

theorem working_memory {c : Cache} (h : c.store = .ok .memory) (files : Files) :
    Working c files := ⟨.memory, h, rfl, nofun⟩

/-- A cache in a directory with nothing in it works and remembers nothing. -/
theorem working_directory {c : Cache} {files : Files} {path : Path} {place : List RawText}
    (h : KeptIn c path) (hfiles : files.WellFormed)
    (hfound : files.find path = .ok (place, .directory))
    (hempty : ∀ name, files.node? (place ++ [name]) = none) :
    Working c files ∧ ∀ other, c.remembers files other = none := by
  have hdirectory : ValueDirectory files path place :=
    ⟨hfiles, hfound, fun name _ => by rw [hempty]; exact nofun⟩
  have hworks : (Store.inDirectory path).Works files := by
    refine ⟨rfl, fun p hp => ?_⟩
    cases hp
    exact ⟨place, hdirectory⟩
  refine ⟨⟨_, h, hworks⟩, fun other => ?_⟩
  rw [remembers_of_works h hworks, Store.value?, Store.inDirectory, hdirectory.held?, hempty]
  rfl

end Cache

end Recast
