/-
  Proofs/Layout/Output.lean --- what writing a Go file does to the tree.

  It changes nothing but the file (`writes_write`), whose place tells it apart from all other files of
  a run (`placeOf_targetPath`).
-/
import Recast.Layout.Output
import Recast.Proofs.Files.Writes
import Recast.Proofs.Layout.Placement

set_option autoImplicit false

namespace Recast.Layout

theorem isName_of_isPackageName {name : String} (h : isPackageName name = true) :
    Path.IsName name := by
  have hchars : name.toList ≠ [] ∧
      ∀ c ∈ name.toList, (isPackageStart c || Text.isAsciiDigit c) = true := by
    unfold isPackageName at h
    split at h
    · cases h
    · next c cs heq =>
      obtain ⟨hstart, hrest⟩ := Bool.and_eq_true_iff.1 h
      rw [heq]
      refine ⟨List.cons_ne_nil c cs, fun d hd => ?_⟩
      rcases List.mem_cons.1 hd with rfl | hd
      · rw [hstart, Bool.true_or]
      · exact List.all_eq_true.1 hrest d hd
  have hnot {text : String} {c : Char} (hc : c ∈ text.toList)
      (hclass : (isPackageStart c || Text.isAsciiDigit c) = false) : name ≠ text := by
    rintro rfl
    rw [hchars.2 c hc] at hclass
    cases hclass
  refine Path.isName_ofString_iff.2 ⟨fun hempty => hchars.1 (hempty ▸ rfl),
    hnot (c := '.') (by decide) (by decide), hnot (c := '.') (by decide) (by decide), fun hmem => ?_⟩
  have hslash := hchars.2 '/' hmem
  revert hslash
  decide

theorem Settings.NamesPackages.isPackageName {s : Settings} (h : s.NamesPackages)
    {sources : List Path} {p : Placement} (hp : p ∈ (place s sources).1) :
    Layout.isPackageName p.module = true := by
  obtain ⟨fileName, hmodule⟩ := exists_classify hp
  rw [hmodule]
  exact h.classify fileName

theorem Settings.NamesPackages.isName {s : Settings} (h : s.NamesPackages) {sources : List Path}
    {p : Placement} (hp : p ∈ (place s sources).1) : Path.IsName p.module :=
  isName_of_isPackageName (h.isPackageName hp)

/-- The place of a Go file. -/
theorem placeOf_targetPath (f : Files) (root : Path) {p : Placement}
    (hmodule : Path.IsName p.module) (hfile : Path.IsName p.fileName) :
    f.placeOf (targetPath root p) = f.placeOf root ++ [(p.module : RawText), p.fileName] := by
  rw [targetPath, Files.placeOf_join f _ hfile, Files.placeOf_join f _ hmodule, List.append_assoc]
  rfl

/-- Writing a Go file changes nothing but the file, and makes directories. -/
theorem writes_write (f : Files) (root : Path) (p : Placement) (content : String) :
    Files.Writes (· = f.placeOf (targetPath root p)) f (write f root p content).2 := by
  refine Files.writes_changeIn fun made hmade g hchange => ?_
  obtain ⟨-, -, hreplace⟩ := Files.bind_eq_ok.1 hchange
  rw [← hmade.placeOf]
  exact Files.writes_replace (Files.mapError_eq_ok.1 hreplace)

/-- A Go file that was written holds what was written. -/
theorem read_of_write {f : Files} {root : Path} {p : Placement} {content : String}
    (h : (write f root p content).1 = .ok ()) :
    (write f root p content).2.read (targetPath root p) = .ok content.toUTF8 := by
  obtain ⟨made, -, hchange⟩ := Files.changeIn_eq_ok.1 (Prod.ext h rfl)
  obtain ⟨-, -, hreplace⟩ := Files.bind_eq_ok.1 hchange
  exact Files.read_replace (Files.mapError_eq_ok.1 hreplace)

theorem beq_eq_true {a b : ByteArray} : (a == b) = true ↔ a = b := by
  change (a.data == b.data) = true ↔ a = b
  rw [beq_iff_eq, ByteArray.ext_iff]

theorem holds_eq_true {f : Files} {path : Path} {content : String} :
    holds f path content = true ↔ f.read path = .ok content.toUTF8 := by
  unfold holds
  split
  · next existing hread => rw [hread, beq_eq_true, Except.ok.injEq]
  · next e hread => rw [hread]; simp

theorem writes_writeIfChanged (f : Files) (root : Path) (p : Placement) (content : String) :
    Files.Writes (· = f.placeOf (targetPath root p)) f (writeIfChanged f root p content).2 := by
  unfold writeIfChanged
  split
  · exact .refl _ f
  · exact writes_write f root p content

/-- Describing the Go module changes nothing but its description, and makes directories. -/
theorem writes_ensureModuleFile (s : Settings) (f : Files) (root : Path) :
    Files.Writes (· = f.placeOf (root.join "go.mod")) f (ensureModuleFile s f root).2 := by
  unfold ensureModuleFile
  dsimp only
  split
  · exact .refl _ f
  · refine Files.writes_changeIn fun made hmade g hchange => ?_
    rw [← hmade.placeOf]
    exact Files.writes_write (Files.mapError_eq_ok.1 hchange)

end Recast.Layout
