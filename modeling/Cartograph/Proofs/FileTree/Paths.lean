import Cartograph.Proofs.FileTree.WellNamed
import Cartograph.Proofs.Paths
import Mathlib.Data.List.Basic

/-!
# Paths of proper names

A path that is glued from proper names is cut into the same names, so it tells the place that it
leads to (`pathOf_injective`). What is known of the file at such a place is what is shown of its
names (`SourceFile.at_eq`), and where these are texts the shown path is cut into them as well
(`splitText_shown_pathOf`).
-/

namespace Cartograph

/-! ## Names and paths -/

namespace EntryName

variable {name : RawText} {names : Place}

theorem partOf? (h : EntryName name) : FilePath.partOf? name.bytes = some (.name name) := by
  have hempty : name.bytes ≠ [] := fun heq => h.ne_empty (congrArg RawText.mk heq)
  have hdot : name.bytes ≠ [FilePath.dot] := fun heq => h.ne_dot (congrArg RawText.mk heq)
  have hdots : name.bytes ≠ [FilePath.dot, FilePath.dot] :=
    fun heq => h.ne_dots (congrArg RawText.mk heq)
  rw [FilePath.partOf?, if_neg (not_or.mpr ⟨hempty, hdot⟩), if_neg hdots]

theorem pieces_pathOf (hne : names ≠ []) (h : ∀ name ∈ names, EntryName name) :
    Text.pieces FilePath.separator (pathOf names).bytes = names.map RawText.bytes := by
  refine Text.pieces_glue (by simpa using hne) fun piece hpiece => ?_
  obtain ⟨name, hname, rfl⟩ := List.mem_map.mp hpiece
  exact (h name hname).not_mem_separator

/-- A path of proper names is cut into them. -/
theorem pathParts_pathOf (hne : names ≠ []) (h : ∀ name ∈ names, EntryName name) :
    FileTree.pathParts (pathOf names) = names := by
  rw [FileTree.pathParts, pieces_pathOf hne h, List.map_map]
  exact List.map_id'' (fun _ => rfl) names

/-- **A path of proper names tells the names** that it is glued from. -/
theorem pathOf_injective {others : Place} (h : ∀ name ∈ names, EntryName name)
    (hothers : ∀ name ∈ others, EntryName name) (hpath : pathOf names = pathOf others) :
    names = others := by
  -- no names make the empty path, which no name makes
  have hempty : ∀ {names : Place}, (∀ name ∈ names, EntryName name) → pathOf names = pathOf [] →
      names = [] := by
    intro names h hpath
    by_contra hne
    have hparts := pathParts_pathOf hne h
    rw [hpath] at hparts
    exact (h "" (by rw [← hparts]; decide)).ne_empty rfl
  by_cases hne : names = []
  · subst hne
    exact (hempty hothers hpath.symm).symm
  · have hne' : others ≠ [] := by
      rintro rfl
      exact hne (hempty h hpath)
    rw [← pathParts_pathOf hne h, hpath, pathParts_pathOf hne' hothers]

theorem innerParts_pathOf (h : ∀ name ∈ names, EntryName name) :
    FilePath.innerParts (pathOf names).bytes = names.map PathPart.name := by
  by_cases hne : names = []
  · subst hne
    rfl
  · rw [FilePath.innerParts, pieces_pathOf hne h, List.filterMap_map, ← List.filterMap_eq_map]
    exact List.filterMap_congr fun name hname => (h name hname).partOf?

/-- A proper name is shown as one that has no separator. -/
theorem not_mem_shown (h : EntryName name) : '/' ∉ name.shown.toList :=
  RawText.not_mem_shown_of_not_mem h.not_mem_separator

end EntryName

/-- What is shown of a path is glued from what is shown of its names. -/
theorem shown_pathOf (names : Place) :
    (pathOf names).shown = Text.joinText '/' (names.map RawText.shown) := by
  rw [← String.toList_inj, RawText.toList_shown, pathOf,
    Text.Utf8.decodeLossy_glue FilePath.separator_lt, FilePath.asciiChar_separator, Text.joinText,
    String.toList_ofList, List.map_map, List.map_map]
  congr 1
  exact List.map_congr_left fun name _ => (RawText.toList_shown name).symm

/-- What is shown of a path of proper names is cut into what is shown of them. -/
theorem splitText_shown_pathOf {names : Place} (hne : names ≠ [])
    (h : ∀ name ∈ names, EntryName name) :
    Text.splitText '/' (pathOf names).shown = names.map RawText.shown := by
  rw [shown_pathOf]
  refine Text.splitText_joinText (by simpa using hne) fun part hpart => ?_
  obtain ⟨name, hname, rfl⟩ := List.mem_map.mp hpart
  exact (h name hname).not_mem_shown

/-! ## Files at places -/

/-- The extension of a name that is shown, in lowercase and without its dot; empty if there is
none. -/
def lowerExtension (name : String) : String :=
  Text.lower ((FilePath.cutShown name).2.getD "")

namespace SourceFile

variable {root above names : Place} {name : RawText}

/-- The path of a file is what is shown of the path that leads to it from the root. -/
theorem path_at_of_entryName (h : ∀ name ∈ names, EntryName name) :
    (SourceFile.at root names).path = (pathOf names).shown := by
  rw [path_at, EntryName.innerParts_pathOf h, FilePath.ofParts, List.map_map, shown_pathOf]
  rfl

theorem fileName?_location_at (h : ∀ n ∈ above ++ [name], EntryName n) :
    FilePath.fileName? (SourceFile.at root (above ++ [name])).location = some name := by
  rw [FilePath.fileName?, parts_location_at, EntryName.innerParts_pathOf h, List.map_append,
    List.map_singleton, ← List.append_assoc, List.getLast?_concat]
  rfl

/-- **What is known of a file** is what is shown of the names that lead to it. -/
theorem at_eq (h : ∀ n ∈ above ++ [name], EntryName n) :
    SourceFile.at root (above ++ [name]) =
      { location := locationOf (root ++ (above ++ [name]))
        path := (pathOf (above ++ [name])).shown
        extension := lowerExtension name.shown, name := name.shown } := by
  have hpath : (SourceFile.at root (above ++ [name])).path = (pathOf (above ++ [name])).shown :=
    path_at_of_entryName h
  have hlast : (FilePath.fileName? (SourceFile.at root (above ++ [name])).location).map
      RawText.shown = some name.shown :=
    congrArg (Option.map RawText.shown) (fileName?_location_at h)
  have hextension := extension_at root (above ++ [name])
  rw [hlast, Option.bind_some, ← lowerExtension] at hextension
  have hname : (SourceFile.at root (above ++ [name])).name = name.shown :=
    congrArg (Option.getD · "") hlast
  show ({ location := locationOf (root ++ (above ++ [name])),
          path := (SourceFile.at root (above ++ [name])).path,
          extension := (SourceFile.at root (above ++ [name])).extension,
          name := (SourceFile.at root (above ++ [name])).name } : SourceFile) = _
  rw [hpath, hextension, hname]

end SourceFile

end Cartograph
