/-
  Proofs/Cache/Mirror.lean --- a store in a directory answers like one in memory.

  A directory `Mirrors` a table when it has a file for each of the keys, and nothing else.  Every
  request keeps that so (`Mirrors.ask`), hence all of them do, one after the other
  (`indistinct_serve`).  A value goes into a file with a name of its own first, which then takes the
  place of the file of the key; nothing is left of it (`stage_eq_set`).
-/
import Recast.Duration
import Recast.Proofs.Cache.Calls
import Recast.Proofs.Cache.Working

set_option autoImplicit false

namespace Recast

namespace Files

/-- The tree with a file moved, in the place of whatever file was there. -/
def move (f : Files) (p q : Path) : Except FileError Files := do
  let content ← f.read p
  let f ← f.removeFile p
  f.replace q content

/-- The tree with a complete file put in the place of whatever file was there, by way of a new file
that is moved there. -/
def stage (f : Files) (new p : Path) (content : ByteArray) : Except FileError Files := do
  if f.exists? new then .error .exists
  let f ← f.write new content
  f.move new p

/-- A file that was put where nothing was, and taken away again, leaves nothing. -/
theorem without_put {f : Files} {place : List RawText} (hne : place ≠ [])
    (h : f.node? place = none) (node : Node) : (f.put place node).without place = f := by
  obtain ⟨nodes, here⟩ := f
  rw [node?, if_neg hne] at h
  refine congrArg (Files.mk · here) (Table.ext_get? fun other => ?_)
  change ((nodes.insert place node).erase place).get? other = nodes.get? other
  rw [Table.get?_erase, Table.get?_insert]
  split
  · next heq => rw [heq, h]
  · rfl

/-- In a directory that has nothing of its name the new file makes no difference. -/
theorem stage_join {f : Files} {directory : Path} {place : List RawText}
    (h : f.find directory = .ok (place, .directory)) {name : RawText} (hname : Path.IsName name)
    (hsize : name.bytes.length ≤ maxNameSize) (hfree : f.node? (place ++ [name]) = none) (p : Path)
    (content : ByteArray) : f.stage (directory.join name) p content = f.replace p content := by
  have hplace : place ++ [name] ≠ [] := by simp
  have hexists : f.exists? (directory.join name) = false := by
    rw [exists?, find_join h hname hsize, hfree]
    rfl
  have hwrite : f.write (directory.join name) content =
      .ok (f.put (place ++ [name]) (.file content)) := by
    rw [write, target_join h hname hsize]
    simp only [bind, Except.bind, hfree, namesDirectory_join directory hname]
    rfl
  have hfound := (writes_write hwrite).find_directory h
  have hnode : (f.put (place ++ [name]) (.file content)).node? (place ++ [name]) =
      some (.file content) := by
    rw [node?_put _ hplace, if_pos rfl]
  have hread : (f.put (place ++ [name]) (.file content)).read (directory.join name) =
      .ok content := by
    rw [read, find_join hfound hname hsize, hnode]
    rfl
  rw [stage, hexists, hwrite]
  simp only [bind, Except.bind, move, hread, removeFile_join hfound hname hsize hnode,
    without_put hplace hfree]
  rfl

end Files

namespace Cache

variable {σ : Type}

/-! ## Requests -/

/-- What a store can be asked to do. -/
inductive Request where
  | get (key : String)
  /-- When a value comes with an expiry, a store may forget it after that time. -/
  | set (key : String) (value : ByteArray) (expiry : Option Duration)
  | delete (key : String)
  | clear
  | size

/-- What a store answers. -/
inductive Answer where
  | value (found : Option ByteArray)
  | done
  | count (n : Nat)
  deriving DecidableEq

namespace Request

/-- The key that a request is about. -/
def key? : Request → Option String
  | get key => some key
  | set key _ _ => some key
  | delete key => some key
  | clear => none
  | size => none

/-- What a keeper that lets no value expire makes of a request. -/
def ask (k : Keeper σ) (o : σ) : Request → Except StoreError Answer × σ
  | get key => ((k.get key o).1.map .value, (k.get key o).2)
  | set key value _ => ((k.set key value o).1.map fun () => .done, (k.set key value o).2)
  | delete key => ((k.delete key o).1.map fun () => .done, (k.delete key o).2)
  | clear => ((k.clear o).1.map .count, (k.clear o).2)
  | size => ((k.size o).1.map .count, (k.size o).2)

end Request

/-- What a keeper makes of requests: each answer, with the state behind it. -/
def Keeper.serve (k : Keeper σ) : List Request → σ → List (Except StoreError Answer × σ)
  | [], _ => []
  | r :: rest, o => r.ask k o :: k.serve rest (r.ask k o).2

/-- Keepers that do the same in the states of a kind, and keep to them, give the same answers. -/
theorem Keeper.serve_congr {k l : Keeper σ} {P : σ → Prop} {requests : List Request}
    (h : ∀ r ∈ requests, ∀ o, P o → r.ask k o = r.ask l o ∧ P (r.ask l o).2) {o : σ} (ho : P o) :
    k.serve requests o = l.serve requests o := by
  induction requests generalizing o with
  | nil => rfl
  | cons r rest ih =>
    obtain ⟨hsame, hknown⟩ := h r (.head _) o ho
    rw [Keeper.serve, Keeper.serve, hsame, ih (fun q hq => h q (.tail _ hq)) hknown]

/-! ## Files on the way -/

/-- A name that a file can have which is not yet one of a value. -/
structure IsTemporary (name : RawText) : Prop where
  isName : Path.IsName name
  fits : name.bytes.length ≤ Files.maxNameSize
  unlisted : (Path.cutName name).2 ≠ some (RawText.ofString "json")

namespace Store

/-- The store and the files with a value put into a new file, which is then moved to the place of
the file of the key. -/
def stage (temporary : Files → RawText) (s : Store) (files : Files) (key : String)
    (value : ByteArray) : Except StoreError (Store × Files) := do
  s.permit .set
  match s.medium with
  | .memory _ => s.put files key value
  | .directory path => onFile do
    return (s, ← files.stage (path.join (temporary files)) (keyPath path key) value)

/-- Stores that put every value into a new file first. -/
def staging (temporary : Files → RawText) : Keeper (Store × Files) :=
  { keeper "dir" with
    set := fun key value o => changed o (o.1.stage temporary o.2 key value) }

end Store

/-- Where there is nothing with a name, it makes no difference that a value is in a file of that
name first. -/
theorem ValueDirectory.stage_eq_set {files : Files} {path : Path} {place : List RawText}
    (h : ValueDirectory files path place) {temporary : Files → RawText}
    (htemporary : IsTemporary (temporary files))
    (hfree : files.node? (place ++ [temporary files]) = none) (name key : String)
    (value : ByteArray) :
    (Store.mk name (.directory path) []).stage temporary files key value =
      (Store.mk name (.directory path) []).set files key value := by
  have hstage := Files.stage_join h.found htemporary.isName htemporary.fits hfree
    (Store.keyPath path key) value
  have hrequire : files.requireDirectory path = .ok () := by
    rw [Files.requireDirectory, h.found]
    rfl
  unfold Store.stage Store.set Store.put
  dsimp only
  simp only [hstage, hrequire, bind, Except.bind]

/-! ## Tables in directories -/

/-- A directory that has a file with the value for each key of a table, and nothing else. -/
structure Shows (files : Files) (path : Path) (values : Table String ByteArray) : Prop where
  names : ∃ names, files.list path = .ok names ∧ names.Nodup ∧
    names.Perm (values.keys.map fun key => (keyName key : RawText)) ∧
      ∀ name ∈ names, (path.join name).extension? = some (RawText.ofString "json")
  read : ∀ key value, values.get? key = some value →
    files.read (Store.keyPath path key) = .ok value

/-- Keys that are told apart by their digests. -/
def AllToldApart (keys : List String) : Prop :=
  ∀ key ∈ keys, ∀ other ∈ keys, Digest.ofString key = Digest.ofString other → key = other

/-- A directory that has a file for each key of a table, all of which are among some keys, and
nothing else. -/
structure Mirrors (keys : List String) (path : Path) (place : List RawText)
    (values : Table String ByteArray) (files : Files) : Prop where
  directory : ValueDirectory files path place
  known : ∀ key, values.get? key ≠ none → key ∈ keys
  held : ∀ key ∈ keys, files.node? (place ++ [(keyName key : RawText)]) = (values.get? key).map .file
  only : ∀ name : RawText, files.node? (place ++ [name]) ≠ none → ∃ key ∈ keys, name = keyName key

theorem keyName_inj {keys : List String} (h : AllToldApart keys) {key other : String}
    (hkey : key ∈ keys) (hother : other ∈ keys) (heq : keyName key = keyName other) :
    key = other :=
  h key hkey other hother (digest_eq_of_keyName_eq heq)

namespace Mirrors

variable {keys : List String} {path : Path} {place : List RawText}
  {values : Table String ByteArray} {files : Files}

theorem empty (h : ValueDirectory files path place)
    (hempty : ∀ name, files.node? (place ++ [name]) = none) :
    Mirrors keys path place ∅ files :=
  ⟨h, fun _ hne => absurd rfl hne, fun _ _ => hempty _, fun name hne => absurd (hempty name) hne⟩

/-- A file of a key with a value in the place of the one that it had. -/
theorem put (h : Mirrors keys path place values files) (hapart : AllToldApart keys) {key : String}
    (hkey : key ∈ keys) (value : ByteArray) :
    Mirrors keys path place (values.insert key value)
      (files.put (place ++ [(keyName key : RawText)]) (.file value)) := by
  have hnot := h.directory.not_directory key
  refine ⟨(h.directory.put key value).2, fun other hother => ?_, fun other hother => ?_,
    fun name hname => ?_⟩
  · rw [Table.get?_insert] at hother
    split at hother
    · next heq => exact heq ▸ hkey
    · exact h.known other hother
  · rw [Files.node?_put_file hnot, Table.get?_insert]
    by_cases heq : other = key
    · rw [if_pos (by rw [heq]), if_pos heq]
      rfl
    · rw [if_neg heq, if_neg, h.held other hother]
      exact fun hplace => heq (keyName_inj hapart hother hkey (by simpa using hplace))
  · rw [Files.node?_put_file hnot] at hname
    split at hname
    · next hplace => exact ⟨key, hkey, by simpa using hplace⟩
    · exact h.only name hname

/-- The file of a key taken away. -/
theorem without (h : Mirrors keys path place values files) (hapart : AllToldApart keys)
    {key : String} (hkey : key ∈ keys) {value : ByteArray} (hvalue : values.get? key = some value) :
    Mirrors keys path place (values.erase key)
      (files.without (place ++ [(keyName key : RawText)])) := by
  have hnode : files.node? (place ++ [(keyName key : RawText)]) = some (.file value) := by
    rw [h.held key hkey, hvalue]
    rfl
  refine ⟨h.directory.without hnode, fun other hother => ?_, fun other hother => ?_,
    fun name hname => ?_⟩
  · rw [Table.get?_erase] at hother
    split at hother
    · exact absurd rfl hother
    · exact h.known other hother
  · rw [Files.node?_without files (by simp), Table.get?_erase]
    by_cases heq : other = key
    · rw [if_pos (by rw [heq]), if_pos heq]
      rfl
    · rw [if_neg heq, if_neg, h.held other hother]
      exact fun hplace => heq (keyName_inj hapart hother hkey (by simpa using hplace))
  · rw [Files.node?_without files (by simp)] at hname
    split at hname
    · exact absurd rfl hname
    · exact h.only name hname

/-- What is in the directory are the files of the keys of the table. -/
theorem perm (h : Mirrors keys path place values files) (hapart : AllToldApart keys)
    {names : List RawText} (hnodup : names.Nodup)
    (hnames : ∀ name, name ∈ names ↔ files.node? (place ++ [name]) ≠ none) :
    names.Perm (values.keys.map fun key => (keyName key : RawText)) := by
  have hkeys : (values.keys.map fun key => (keyName key : RawText)).Nodup := by
    refine List.pairwise_map.2 (values.keys_ascending.imp_of_mem fun hkey hother hlt heq => ?_)
    have hsame := keyName_inj hapart (h.known _ (values.mem_keys_iff.1 hkey))
      (h.known _ (values.mem_keys_iff.1 hother)) (RawText.ofString_injective heq)
    exact Std.lt_irrefl (hsame ▸ hlt)
  refine (List.perm_ext_iff_of_nodup hnodup hkeys).2 fun name => ?_
  rw [hnames, List.mem_map]
  constructor
  · intro hnode
    obtain ⟨key, hkey, rfl⟩ := h.only name hnode
    rw [h.held key hkey, ne_eq, Option.map_eq_none_iff] at hnode
    exact ⟨key, values.mem_keys_iff.2 hnode, rfl⟩
  · rintro ⟨key, hkey, rfl⟩
    rw [Table.mem_keys_iff] at hkey
    rw [h.held key (h.known key hkey), ne_eq, Option.map_eq_none_iff]
    exact hkey

/-- The number of files with the ending of values is the number of keys. -/
theorem length_eq (h : Mirrors keys path place values files) (hapart : AllToldApart keys)
    {names : List RawText} (hvalues : Store.valueFiles files path = .ok (names.map path.join)) :
    names.length = values.size := by
  obtain ⟨listed, hlisted, hnodup, hmem⟩ := h.directory.exists_valueFiles
  have hlength : names.length = listed.length := by
    rw [hvalues, Except.ok.injEq] at hlisted
    have hmapped := congrArg List.length hlisted
    rwa [List.length_map, List.length_map] at hmapped
  have hperm := h.perm hapart hnodup fun name => by
    rw [hmem, and_iff_right_iff_imp]
    intro hnode
    obtain ⟨key, -, rfl⟩ := h.only name hnode
    exact cutName_keyName key
  rw [hlength, hperm.length_eq, List.length_map, Table.keys, List.length_map, Table.size]

theorem shows (h : Mirrors keys path place values files) (hapart : AllToldApart keys) :
    Shows files path values := by
  obtain ⟨names, hlist, hnodup, hmem⟩ := Files.exists_list h.directory.found
  have hperm := h.perm hapart hnodup hmem
  refine ⟨⟨names, hlist, hnodup, hperm, fun name hname => ?_⟩, fun key value hvalue => ?_⟩
  · obtain ⟨key, -, rfl⟩ := List.mem_map.1 (hperm.mem_iff.1 hname)
    rw [Path.extension?_join path (isName_keyName key), cutName_keyName]
  · have hkey := h.known key (hvalue ▸ Option.some_ne_none value)
    rw [Files.read, h.directory.find_keyPath, h.held key hkey, hvalue]
    rfl

/-! ## A request -/

theorem get_eq (h : Mirrors keys path place values files) {key : String} (hkey : key ∈ keys) :
    (Store.inDirectory path).get files key = .ok (values.get? key) := by
  have hheld : (Store.inDirectory path).held? files key = .ok (values.get? key) := by
    rw [Store.inDirectory, h.directory.held?, h.held key hkey]
    cases values.get? key <;> rfl
  have hpermit : (Store.inDirectory path).permit .get = .ok () := rfl
  simp only [Store.get, hpermit, bind, Except.bind, hheld]

/-- Only the files of keys are removed, and there were no others. -/
theorem clear_spec (h : Mirrors keys path place values files) (hapart : AllToldApart keys) :
    ∃ g, (Store.inDirectory path).clear files = (.ok values.size, .inDirectory path, g) ∧
      Mirrors keys path place ∅ g := by
  obtain ⟨names, g, hvalues, hclear, hdirectory, hnodes⟩ := h.directory.clear "dir"
  have hempty (name : RawText) : g.node? (place ++ [name]) = none := by
    rw [hnodes]
    split
    · rfl
    · next hjson =>
      by_contra hnode
      obtain ⟨key, -, rfl⟩ := h.only name hnode
      exact hjson (cutName_keyName key)
  refine ⟨g, ?_, .empty hdirectory hempty⟩
  rw [Store.inDirectory, hclear, h.length_eq hapart hvalues]

theorem size_eq (h : Mirrors keys path place values files) (hapart : AllToldApart keys) :
    (Store.inDirectory path).size files = .ok values.size := by
  obtain ⟨names, hvalues, -⟩ := h.directory.exists_valueFiles
  unfold Store.size Store.inDirectory
  dsimp only
  rw [hvalues, ← h.length_eq hapart hvalues, ← List.length_map path.join]
  rfl

/-- What is asked of a directory that mirrors a table is answered as the table would, and the
directory goes on mirroring it. -/
theorem ask (h : Mirrors keys path place values files) (hapart : AllToldApart keys) {r : Request}
    (hkeys : ∀ key, r.key? = some key → key ∈ keys) (elsewhere : Files) :
    ∃ answer values' files',
      r.ask (Store.keeper "dir") (.inDirectory path, files) =
        (.ok answer, .inDirectory path, files') ∧
      r.ask (Store.keeper "memory") (⟨"memory", .memory values, []⟩, elsewhere) =
        (.ok answer, ⟨"memory", .memory values', []⟩, elsewhere) ∧
      Mirrors keys path place values' files' := by
  cases r with
  | get key =>
    refine ⟨.value (values.get? key), values, files, ?_, rfl, h⟩
    simp only [Request.ask, Store.keeper, h.get_eq (hkeys key rfl), Except.map]
  | set key value expiry =>
    have hset := h.directory.set "dir" key value
    refine ⟨.done, values.insert key value, _, ?_, rfl, h.put hapart (hkeys key rfl) value⟩
    simp only [Request.ask, Store.keeper, Store.inDirectory, hset, Store.changed, Except.map]
  | delete key =>
    have hnode := h.held key (hkeys key rfl)
    cases hvalue : values.get? key with
    | none =>
      rw [hvalue] at hnode
      have hdelete := h.directory.delete_of_none "dir" hnode
      refine ⟨.done, values.erase key, files, ?_, rfl, by rwa [Table.erase_of_get?_eq_none hvalue]⟩
      simp only [Request.ask, Store.keeper, Store.inDirectory, hdelete, Store.changed, Except.map]
    | some value =>
      rw [hvalue] at hnode
      have hdelete := h.directory.delete_of_file "dir" hnode
      refine ⟨.done, values.erase key, _, ?_, rfl, h.without hapart (hkeys key rfl) hvalue⟩
      simp only [Request.ask, Store.keeper, Store.inDirectory, hdelete, Store.changed, Except.map]
  | clear =>
    obtain ⟨g, hclear, hmirrors⟩ := h.clear_spec hapart
    refine ⟨.count values.size, ∅, g, ?_, rfl, hmirrors⟩
    simp only [Request.ask, Store.keeper, hclear, Except.map]
  | size =>
    refine ⟨.count values.size, values, files, ?_, rfl, h⟩
    simp only [Request.ask, Store.keeper, h.size_eq hapart, Except.map]

/-- It makes no difference that values are in files of their own first. -/
theorem ask_staging (h : Mirrors keys path place values files) {temporary : Files → RawText}
    (htemporary : IsTemporary (temporary files)) (r : Request) :
    r.ask (Store.staging temporary) (.inDirectory path, files) =
      r.ask (Store.keeper "dir") (.inDirectory path, files) := by
  cases r with
  | set key value expiry =>
    have hfree : files.node? (place ++ [temporary files]) = none := by
      by_contra hnode
      obtain ⟨key, -, heq⟩ := h.only _ hnode
      exact htemporary.unlisted (heq ▸ cutName_keyName key)
    have hstage := h.directory.stage_eq_set htemporary hfree "dir" key value
    simp only [Request.ask, Store.staging, Store.keeper, Store.inDirectory, hstage]
  | get key | delete key | clear | size => rfl

end Mirrors

/-! ## Requests one after the other -/

/-- A store in a directory and a store in memory behind a request: they have given the same answer,
and the directory has a file for each key that the memory holds, and nothing else. -/
structure Indistinct (path : Path) (d m : Except StoreError Answer × Store × Files) : Prop where
  answer : ∃ answer, d.1 = .ok answer ∧ m.1 = .ok answer
  content : ∃ values, m.2.1.medium = .memory values ∧ Shows d.2.2 path values

namespace Mirrors

variable {keys : List String} {path : Path} {place : List RawText}
  {values : Table String ByteArray} {files : Files} {requests : List Request}

theorem serve (h : Mirrors keys path place values files) (hapart : AllToldApart keys)
    (hkeys : ∀ r ∈ requests, ∀ key, r.key? = some key → key ∈ keys) (elsewhere : Files) :
    List.Forall₂ (Indistinct path)
      ((Store.keeper "dir").serve requests (.inDirectory path, files))
      ((Store.keeper "memory").serve requests (⟨"memory", .memory values, []⟩, elsewhere)) := by
  induction requests generalizing values files with
  | nil => exact .nil
  | cons r rest ih =>
    obtain ⟨answer, values', files', hd, hm, hmirrors⟩ := h.ask hapart (hkeys r (.head _)) elsewhere
    rw [Keeper.serve, Keeper.serve, hd, hm]
    refine .cons ⟨⟨answer, rfl, rfl⟩, values', rfl, hmirrors.shows hapart⟩ ?_
    exact ih hmirrors fun q hq => hkeys q (.tail _ hq)

theorem serve_staging (h : Mirrors keys path place values files) (hapart : AllToldApart keys)
    (hkeys : ∀ r ∈ requests, ∀ key, r.key? = some key → key ∈ keys) {temporary : Files → RawText}
    (htemporary : ∀ f, IsTemporary (temporary f)) :
    (Store.staging temporary).serve requests (.inDirectory path, files) =
      (Store.keeper "dir").serve requests (.inDirectory path, files) := by
  refine Keeper.serve_congr (P := fun o => ∃ values files,
    o = (.inDirectory path, files) ∧ Mirrors keys path place values files) ?_
    ⟨values, files, rfl, h⟩
  rintro r hr _ ⟨values, files, rfl, h⟩
  obtain ⟨answer, values', files', hd, -, hmirrors⟩ := h.ask hapart (hkeys r hr) files
  refine ⟨h.ask_staging (htemporary files) r, values', files', ?_, hmirrors⟩
  rw [hd]

end Mirrors

/-- A directory that was opened and has nothing in it mirrors the empty table. -/
theorem exists_mirrors_of_openDirectory {before files : Files} {path : Path} {store : Store}
    (hbefore : before.WellFormed) (hopen : Store.openDirectory before path = (.ok store, files))
    (hempty : files.list path = .ok []) (keys : List String) :
    store = .inDirectory path ∧ ∃ place, Mirrors keys path place ∅ files := by
  have hwellFormed : files.WellFormed := by
    have hfiles : (before.makeDirectories path).2 = files := congrArg Prod.snd hopen
    exact hfiles ▸ (Files.writes_makeDirectories (W := fun _ => False) before path).wellFormed
      hbefore
  have hstore : store = .inDirectory path := by
    have hmade := congrArg Prod.fst hopen
    unfold Store.openDirectory at hmade
    dsimp only at hmade
    split at hmade
    · exact (Except.ok.inj hmade).symm
    · cases hmade
  refine ⟨hstore, ?_⟩
  cases hfind : files.find path with
  | error e =>
    rw [Files.list, hfind] at hempty
    cases hempty
  | ok found =>
    obtain ⟨place, node⟩ := found
    cases node with
    | file content =>
      rw [Files.list, hfind] at hempty
      cases hempty
    | directory =>
      obtain ⟨names, hlist, -, hmem⟩ := Files.exists_list hfind
      rw [hempty] at hlist
      cases hlist
      have hnone (name : RawText) : files.node? (place ++ [name]) = none :=
        not_not.1 fun hnode => List.not_mem_nil ((hmem name).2 hnode)
      refine ⟨place, .empty ⟨hwellFormed, hfind, fun name _ => ?_⟩ hnone⟩
      rw [hnone]
      exact (Option.some_ne_none _).symm

/-- Whatever is asked of them, one thing after the other, a store in an empty directory and one in
memory answer the same, and the directory has a file for each key that is held, and nothing else.
That values are in files with other names first makes no difference. -/
theorem indistinct_serve {before files : Files} {path : Path} {store : Store}
    {requests : List Request} {temporary : Files → RawText} (hbefore : before.WellFormed)
    (hopen : Store.openDirectory before path = (.ok store, files))
    (hempty : files.list path = .ok [])
    (hapart : AllToldApart (requests.filterMap Request.key?))
    (htemporary : ∀ f, IsTemporary (temporary f)) (elsewhere : Files) :
    List.Forall₂ (Indistinct path) ((Store.keeper "dir").serve requests (store, files))
        ((Store.keeper "memory").serve requests (.memory, elsewhere)) ∧
      (Store.staging temporary).serve requests (store, files) =
        (Store.keeper "dir").serve requests (store, files) := by
  obtain ⟨rfl, place, hmirrors⟩ := exists_mirrors_of_openDirectory hbefore hopen hempty
    (requests.filterMap Request.key?)
  have hkeys : ∀ r ∈ requests, ∀ key, r.key? = some key →
      key ∈ requests.filterMap Request.key? := fun r hr key hkey =>
    List.mem_filterMap.2 ⟨r, hr, hkey⟩
  exact ⟨hmirrors.serve hapart hkeys elsewhere, hmirrors.serve_staging hapart hkeys htemporary⟩

/-- Values that are replaced, removed, looked for in vain and cleared away. -/
theorem indistinct_serve_exercise :
    let a := "entry:a.py"
    let b := "entry:b.py"
    let requests : List Request :=
      [.get a, .set a "one".toUTF8 none, .set b "two".toUTF8 none,
        .set a "three".toUTF8 (some (.ofSeconds 1)), .get a, .size, .delete a, .delete a, .get a,
        .clear, .size]
    ∃ files, Store.openDirectory {} ⟨"/cache"⟩ = (.ok (.inDirectory ⟨"/cache"⟩), files) ∧
      List.Forall₂ (Indistinct ⟨"/cache"⟩)
        ((Store.staging fun _ => ".tmpA1b2C3").serve requests (.inDirectory ⟨"/cache"⟩, files))
        ((Store.keeper "memory").serve requests (.memory, {})) ∧
      ((Store.keeper "memory").serve requests (.memory, {})).map (·.1) =
        [.ok (.value none), .ok .done, .ok .done, .ok .done, .ok (.value (some "three".toUTF8)),
          .ok (.count 2), .ok .done, .ok .done, .ok (.value none), .ok (.count 1),
          .ok (.count 0)] := by
  intro a b requests
  have hopen : Store.openDirectory {} ⟨"/cache"⟩ =
      (.ok (.inDirectory ⟨"/cache"⟩), ({} : Files).put ["cache"] .directory) := rfl
  have hapart : AllToldApart (requests.filterMap Request.key?) := by
    have hkeys : ∀ key ∈ requests.filterMap Request.key?, key = a ∨ key = b := by decide
    have hne : Digest.ofString a ≠ Digest.ofString b := ofString_ne_ofString
    intro key hkey other hother heq
    rcases hkeys key hkey with ha | hb <;> rcases hkeys other hother with ha' | hb'
    · exact ha.trans ha'.symm
    · exact absurd (ha ▸ hb' ▸ heq) hne
    · exact absurd (hb ▸ ha' ▸ heq).symm hne
    · exact hb.trans hb'.symm
  have htemporary : IsTemporary ".tmpA1b2C3" := ⟨by decide, by decide, by decide⟩
  obtain ⟨hsame, hstaging⟩ := indistinct_serve Files.wellFormed_empty hopen rfl hapart
    (fun _ => htemporary) {}
  refine ⟨_, hopen, ?_, by decide⟩
  rw [hstaging]
  exact hsame

end Cache

end Recast
