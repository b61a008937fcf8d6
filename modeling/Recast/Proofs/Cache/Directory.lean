/-
  Proofs/Cache/Directory.lean --- a cache that keeps its entries in the files of a directory.

  Keys whose files are the same have the same digest (`digest_eq_of_keyName_eq`).  A change of an
  entry changes nothing but its file (`KeptIn.update`).
-/
import Recast.Proofs.Cache.Store
import Recast.Proofs.Files.Writes

set_option autoImplicit false

namespace Recast

namespace Digest

/-- The characters of hexadecimal numbers. -/
def isHex (c : Char) : Bool := ('0' ≤ c && c ≤ '9') || ('a' ≤ c && c ≤ 'f')

theorem isHex_hexDigit : ∀ n, n < 16 → isHex (Text.hexDigit n) = true := by decide

theorem isHex_of_mem_hex {message : String} {c : Char} (h : c ∈ (ofString message).hex.toList) :
    isHex c = true := by
  rw [ofString, ofBytes, ofList, String.toList_ofList] at h
  obtain ⟨b, -, hc⟩ := List.mem_flatMap.1 h
  have hb := b.toNat_lt
  rcases List.mem_cons.1 hc with rfl | hc
  · exact isHex_hexDigit _ (by omega)
  · rw [List.mem_singleton.1 hc]
    exact isHex_hexDigit _ (by omega)

end Digest

namespace Cache

/-- The store with a file for each key in a directory. -/
def Store.inDirectory (path : Path) : Store := { name := "dir", medium := .directory path }

/-- Whether a cache keeps its entries in the files of a directory. -/
def KeptIn (c : Cache) (directory : Path) : Prop := c.store = .ok (.inDirectory directory)

/-- The file of the entry of a source file. -/
def entryPath (directory path : Path) : Path := Store.keyPath directory (entryKey path)

/-- The name of the file of a key. -/
def keyName (key : String) : String := (Digest.ofString key).hex ++ ".json"

theorem keyName_ne {key stem : String} {c : Char} (hc : c ∈ stem.toList)
    (hclass : Digest.isHex c = false) : keyName key ≠ stem ++ ".json" := by
  intro heq
  have hstem := (String.append_left_inj ".json").1 heq
  rw [Digest.isHex_of_mem_hex (hstem ▸ hc)] at hclass
  cases hclass

theorem isName_keyName (key : String) : Path.IsName (keyName key) := by
  have hlast (text : String) (hlength : text.toList.length < 5) : keyName key ≠ text := by
    rintro rfl
    have hjson : ".json".toList.length = 5 := by decide
    rw [keyName, String.toList_append, List.length_append, hjson] at hlength
    omega
  refine Path.isName_ofString_iff.2
    ⟨hlast "" (by decide), hlast "." (by decide), hlast ".." (by decide), ?_⟩
  rw [keyName, String.toList_append]
  intro hmem
  rcases List.mem_append.1 hmem with hmem | hmem
  · have hhex := Digest.isHex_of_mem_hex hmem
    revert hhex
    decide
  · revert hmem
    decide

theorem placeOf_entryPath (f : Files) (directory path : Path) :
    f.placeOf (entryPath directory path) =
      f.placeOf directory ++ [(keyName (entryKey path) : RawText)] :=
  Files.placeOf_join f directory (isName_keyName _)

/-- Keys with files of the same name have the same digest. -/
theorem digest_eq_of_keyName_eq {key other : String} (h : keyName key = keyName other) :
    Digest.ofString key = Digest.ofString other := by
  have hhex := (String.append_left_inj ".json").1 h
  generalize Digest.ofString key = a at hhex
  generalize Digest.ofString other = b at hhex
  cases a
  cases b
  cases hhex
  rfl

/-- Keys that are told apart have files of their own. -/
theorem place_keyName_ne (place : List RawText) {key other : String}
    (h : Digest.ofString key ≠ Digest.ofString other) :
    place ++ [(keyName other : RawText)] ≠ place ++ [(keyName key : RawText)] := fun hplace =>
  h (digest_eq_of_keyName_eq (by simpa using hplace)).symm

namespace KeptIn

variable {c d : Cache} {directory : Path}

theorem of_consulted (h : KeptIn c directory) (hcache : Consulted c d) : KeptIn d directory := by
  rw [KeptIn, hcache.store]
  exact h

theorem isAvailable (h : KeptIn c directory) : c.isAvailable = true := by
  rw [Cache.isAvailable, h]
  rfl

/-- What is remembered about a file is what its entry file keeps. -/
theorem remembers_eq_some (h : KeptIn c directory) {files : Files} {path : Path} {e : Entry} :
    c.remembers files path = some e ↔ ∃ bytes,
      files.read (entryPath directory path) = .ok bytes ∧ Entry.decode? bytes = some e := by
  rw [Cache.remembers_eq_some]
  constructor
  · rintro ⟨s, bytes, hs, hget, hdecode⟩
    rw [h] at hs
    cases hs
    exact ⟨bytes, Store.held?_directory.1 (Store.get_eq_some.1 hget).2, hdecode⟩
  · rintro ⟨bytes, hread, hdecode⟩
    exact ⟨_, bytes, h, Store.get_eq_some.2 ⟨rfl, Store.held?_directory.2 hread⟩, hdecode⟩

/-- What is remembered about a file whose entry file is not written to stays. -/
theorem remembers_of_writes (h : KeptIn c directory) (hcache : Consulted c d)
    {W : List RawText → Prop} {f g : Files} (hwrites : f.Writes W g) {path : Path} {e : Entry}
    (hw : ¬W (f.placeOf (entryPath directory path))) (he : c.remembers f path = some e) :
    d.remembers g path = some e := by
  obtain ⟨bytes, hread, hdecode⟩ := h.remembers_eq_some.1 he
  exact (h.of_consulted hcache).remembers_eq_some.2 ⟨bytes, hwrites.read hread hw, hdecode⟩

/-- A change of an entry changes nothing but its file.  It fails, or the file holds the new entry
afterwards. -/
theorem update (h : KeptIn c directory) (files : Files) (path : Path) (digest : Digest)
    (change : Entry → Entry) :
    Consulted c (c.update files path digest change).1 ∧
      files.Writes (· = files.placeOf (entryPath directory path))
        (c.update files path digest change).2.1 ∧
      (((c.update files path digest change).2.1 = files ∧
          (c.update files path digest change).1.failure ≠ none) ∨
        (c.update files path digest change).2.1.read (entryPath directory path) =
          .ok (c.nextEntry files path digest change).encode) := by
  rcases update_cases c files path digest change with ⟨hcache, hfiles, hfailure⟩ |
      ⟨s, t, d, hstore, hcache, heq, hput⟩
  · refine ⟨hcache, ?_, .inl ⟨hfiles, hfailure h.isAvailable⟩⟩
    rw [hfiles]
    exact .refl _ files
  · rw [h] at hstore
    cases hstore
    obtain ⟨rfl, -, hreplace⟩ := Store.put_directory.1 hput
    have hsame : (c.update files path digest change).1 = d := by
      rw [heq]
      obtain ⟨⟨failure, hits, misses, rfl⟩, -⟩ := hcache
      exact congrArg (fun store => Cache.mk store c.force c.now failure hits misses) h.symm
    refine ⟨hsame ▸ hcache, Files.writes_replace hreplace, .inr ?_⟩
    exact Files.read_replace hreplace

end KeptIn

/-- Only a cache in a directory has to do with files. -/
theorem openIn_of_ne_directory {backend : Backend} (h : backend ≠ .directory)
    (server : Except StoreError Server) (stateDirectory : Path) :
    ∃ c log, (∀ files, Cache.openIn backend server stateDirectory files = (c, files, log)) ∧
      ∀ s, c.store = .ok s → ∃ values, s.medium = .memory values := by
  cases backend with
  | directory => exact absurd rfl h
  | memory => exact ⟨_, _, fun _ => rfl, fun _ hs => Except.ok.inj hs ▸ ⟨_, rfl⟩⟩
  | remote =>
    cases server with
    | error e => exact ⟨_, _, fun _ => rfl, nofun⟩
    | ok s => exact ⟨_, _, fun _ => rfl, fun _ hs => Except.ok.inj hs ▸ ⟨_, rfl⟩⟩
  | none => exact ⟨_, _, fun _ => rfl, nofun⟩

/-- Opening a cache in a directory makes the directory, and there is a cache if it is made. -/
theorem openIn_directory (server : Except StoreError Server) (stateDirectory : Path)
    (files : Files) :
    (Cache.openIn .directory server stateDirectory files).2.1 =
        (files.makeDirectories (stateDirectory.join "cache")).2 ∧
      ((files.makeDirectories (stateDirectory.join "cache")).1 = .ok () →
        KeptIn (Cache.openIn .directory server stateDirectory files).1
          (stateDirectory.join "cache")) ∧
      ((Cache.openIn .directory server stateDirectory files).1.isAvailable = true →
        (files.makeDirectories (stateDirectory.join "cache")).1 = .ok ()) := by
  unfold openIn openStore Store.openDirectory
  dsimp only
  cases hmade : (files.makeDirectories (stateDirectory.join "cache")).1 with
  | error e => exact ⟨rfl, nofun, nofun⟩
  | ok _ => exact ⟨rfl, fun _ => rfl, fun _ => rfl⟩

/-- Opening a cache makes directories at most. -/
theorem writes_openIn {W : List RawText → Prop} (backend : Backend)
    (server : Except StoreError Server) (stateDirectory : Path) (files : Files) :
    files.Writes W (Cache.openIn backend server stateDirectory files).2.1 := by
  by_cases h : backend = .directory
  · subst h
    rw [(openIn_directory server stateDirectory files).1]
    exact Files.writes_makeDirectories files (stateDirectory.join "cache")
  · obtain ⟨c, log, hopen, -⟩ := openIn_of_ne_directory h server stateDirectory
    rw [hopen]
    exact .refl W files

end Cache

end Recast
