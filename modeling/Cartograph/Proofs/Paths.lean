import Cartograph.Proofs.Discovery
import Cartograph.Proofs.Text.Shown
import Mathlib.Data.List.Basic

/-!
# What the path of a file tells

The path of a file below the root of its repository has lost the root, and of names that are no
texts it has only what is shown of them. What else a reader is told of the file is shown in the same
way and can be read off the path: the name, the extension and so the language of the file. Main
statement: files of one repository with the same path have the same node (`node_eq_of_path_eq`).
-/

namespace Cartograph

/-! ## Bytes and what is shown of them -/

namespace FilePath

theorem separator_lt : separator < 0x80 := by decide

theorem dot_lt : dot < 0x80 := by decide

theorem asciiChar_separator : Text.Utf8.asciiChar separator = '/' := by decide

theorem asciiChar_dot : Text.Utf8.asciiChar dot = '.' := by decide

end FilePath

namespace RawText

variable {text : RawText}

@[simp] theorem toList_shown (text : RawText) :
    text.shown.toList = Text.Utf8.decodeLossy text.bytes := by
  rw [shown, String.toList_ofList]

/-- Nothing is shown of no bytes only. -/
theorem shown_eq_empty_iff : text.shown = "" ↔ text = "" := by
  rw [← isEmpty_iff, isEmpty, List.isEmpty_iff, ← Text.Utf8.decodeLossy_eq_nil_iff, ← toList_shown,
    ← String.toList_inj]
  rfl

/-- Only two dots are shown as two dots. -/
theorem eq_dots_of_shown_eq (h : text.shown = "..") : text = ".." := by
  rw [← String.toList_inj, toList_shown] at h
  have hbytes : text.bytes = [FilePath.dot, FilePath.dot] :=
    Text.Utf8.eq_of_decodeLossy_eq (by simp [FilePath.dot_lt]) h
  exact congrArg RawText.mk hbytes

/-- A separator is shown only where its byte is. -/
theorem not_mem_shown_of_not_mem (h : FilePath.separator ∉ text.bytes) :
    '/' ∉ text.shown.toList := by
  rw [toList_shown, ← FilePath.asciiChar_separator]
  exact fun hmem => h (Text.Utf8.mem_of_asciiChar_mem FilePath.separator_lt hmem)

end RawText

/-! ## Parts of paths -/

namespace FilePath

/-- The parts of a path that has nothing in front. -/
def innerParts (bytes : List UInt8) : List PathPart :=
  (Text.pieces separator bytes).filterMap partOf?

theorem parts_eq (path : RawText) : parts path
    = front (Text.pieces separator path.bytes) ++ innerParts path.bytes := rfl

/-- A part that comes from a piece is written as the piece. -/
theorem bytes_text_of_partOf? {piece : List UInt8} {part : PathPart}
    (h : partOf? piece = some part) : part.text.bytes = piece := by
  unfold partOf? at h
  split at h
  · cases h
  · split at h
    · rename_i hup
      cases h
      rw [hup]
      rfl
    · cases h
      rfl

end FilePath

/-- A part that stands behind the front of a path: it is one piece, and read back from it. -/
structure PathPart.Inner (part : PathPart) : Prop where
  partOf?_text : FilePath.partOf? part.text.bytes = some part
  not_mem_separator : FilePath.separator ∉ part.text.bytes

namespace PathPart.Inner

variable {part : PathPart}

theorem shown_ne_empty (h : part.Inner) : part.text.shown ≠ "" := by
  intro hempty
  have hpart := h.partOf?_text
  rw [RawText.shown_eq_empty_iff.mp hempty] at hpart
  cases hpart

theorem not_mem_shown (h : part.Inner) : '/' ∉ part.text.shown.toList :=
  RawText.not_mem_shown_of_not_mem h.not_mem_separator

/-- What is shown of a part tells its name as far as it is shown. -/
theorem map_shown_name? (h : part.Inner) : part.name?.map RawText.shown
    = if part.text.shown = ".." then none else some part.text.shown := by
  have hpart := h.partOf?_text
  cases part with
  | root => exact absurd (List.mem_singleton.mpr rfl) h.not_mem_separator
  | here => cases hpart
  | up => exact (if_pos (RawText.shown_ofText "..")).symm
  | name text =>
      have hne : text.shown ≠ ".." := by
        intro hdots
        rw [PathPart.text, RawText.eq_dots_of_shown_eq hdots] at hpart
        cases hpart
      exact (if_neg hne).symm

end PathPart.Inner

namespace FilePath

theorem inner_of_mem_innerParts {bytes : List UInt8} {part : PathPart}
    (h : part ∈ innerParts bytes) : part.Inner := by
  obtain ⟨piece, hpiece, hpart⟩ := List.mem_filterMap.mp h
  have hbytes := bytes_text_of_partOf? hpart
  exact ⟨hbytes ▸ hpart, hbytes ▸ Text.not_mem_of_mem_pieces hpiece⟩

/-- **Inner parts are read back** as far as they are shown. -/
theorem filter_splitText_ofParts {parts : List PathPart} (h : ∀ part ∈ parts, part.Inner) :
    (Text.splitText '/' (ofParts parts)).filter (· ≠ "")
      = parts.map fun part => part.text.shown := by
  by_cases hne : parts = []
  · subst hne
    rfl
  · rw [ofParts, Text.splitText_joinText (by simpa using hne), List.filter_eq_self]
    · intro shown hshown
      obtain ⟨part, hpart, rfl⟩ := List.mem_map.mp hshown
      exact decide_eq_true (h part hpart).shown_ne_empty
    · intro shown hshown
      obtain ⟨part, hpart, rfl⟩ := List.mem_map.mp hshown
      exact (h part hpart).not_mem_shown

/-! ## Parts of places -/

theorem innerParts_pathOf_append (a b : Place) :
    innerParts (pathOf (a ++ b)).bytes
      = innerParts (pathOf a).bytes ++ innerParts (pathOf b).bytes := by
  by_cases ha : a = []
  · subst ha
    rfl
  · by_cases hb : b = []
    · subst hb
      rw [List.append_nil]
      exact (List.append_nil _).symm
    · simp only [pathOf, List.map_append]
      rw [Text.glue_append (by simpa using ha) (by simpa using hb), innerParts, Text.pieces_append,
        List.filterMap_append]
      rfl

theorem parts_locationOf (place : Place) :
    parts (locationOf place) = .root :: innerParts (pathOf place).bytes := by
  have hbytes : (locationOf place).bytes = separator :: (pathOf place).bytes := rfl
  obtain ⟨piece, rest, hpieces⟩ :=
    List.exists_cons_of_ne_nil (Text.pieces_ne_nil separator (pathOf place).bytes)
  have hfront : front (Text.pieces separator (separator :: (pathOf place).bytes)) = [.root] := by
    rw [Text.pieces, if_pos rfl, hpieces, front]
  rw [parts_eq, hbytes, hfront, innerParts, Text.pieces, if_pos rfl,
    List.filterMap_cons_none (by rfl)]
  rfl

/-! ## Names and extensions that are shown -/

/-- A name that is shown, without its extension, and the extension. -/
def cutShown (name : String) : String × Option String :=
  let cut := cutAtLast '.' name.toList
  (String.ofList cut.1, cut.2.map String.ofList)

/-- **What is shown of a name** is cut where the name is. -/
theorem cutShown_shown (name : RawText) : cutShown name.shown
    = ((cutExtension name).1.shown, (cutExtension name).2.map RawText.shown) := by
  have hpieces : (Text.pieces '.' name.shown.toList).reverse
      = (Text.pieces dot name.bytes).reverse.map Text.Utf8.decodeLossy := by
    rw [← asciiChar_dot, RawText.toList_shown, Text.Utf8.pieces_decodeLossy dot_lt,
      List.map_reverse]
  rw [cutShown, cutExtension]
  unfold cutAtLast
  rw [hpieces]
  rcases (Text.pieces dot name.bytes).reverse with _ | ⟨last, _ | ⟨piece, pieces⟩⟩
  · simp [RawText.shown]
  · simp [RawText.shown]
  · have hstem : Text.glue '.' (Text.Utf8.decodeLossy piece
          :: pieces.map Text.Utf8.decodeLossy).reverse
        = Text.Utf8.decodeLossy (Text.glue dot (piece :: pieces).reverse) := by
      rw [Text.Utf8.decodeLossy_glue dot_lt, asciiChar_dot, List.map_reverse, List.map_cons]
    simp only [List.map_cons, hstem, List.isEmpty_iff, Text.Utf8.decodeLossy_eq_nil_iff]
    split
    · simp [RawText.shown]
    · simp [RawText.shown]

theorem map_shown_extension? (path : RawText) : (extension? path).map RawText.shown
    = ((fileName? path).map RawText.shown).bind fun name => (cutShown name).2 := by
  rw [extension?]
  cases fileName? path with
  | none => rfl
  | some name =>
      show (cutExtension name).2.map RawText.shown = (cutShown name.shown).2
      rw [cutShown_shown]

end FilePath

namespace SourceFile

open FilePath

/-! ## What is shown of a file -/

variable {root names : Place}

theorem path_at (root names : Place) :
    (SourceFile.at root names).path = ofParts (innerParts (pathOf names).bytes) := by
  have hprefix (xs ys : List PathPart) : relativeParts xs (xs ++ ys) = ys := by
    rw [relativeParts, if_pos (List.isPrefixOf_iff_prefix.mpr (List.prefix_append xs ys)),
      List.drop_left]
  rw [SourceFile.at, under, parts_locationOf, parts_locationOf, innerParts_pathOf_append,
    ← List.cons_append, hprefix]

/-- Where a file is: behind the parts of the root come those below it. -/
theorem parts_location_at (root names : Place) :
    parts (SourceFile.at root names).location
      = parts (locationOf root) ++ innerParts (pathOf names).bytes := by
  rw [parts_locationOf, List.cons_append, ← innerParts_pathOf_append, ← parts_locationOf]
  rfl

/-- The path of a file has what is shown of the parts below the root. -/
theorem filter_splitText_path_at (root names : Place) :
    (Text.splitText '/' (SourceFile.at root names).path).filter (· ≠ "")
      = (innerParts (pathOf names).bytes).map fun part => part.text.shown := by
  rw [path_at]
  exact filter_splitText_ofParts fun _ => inner_of_mem_innerParts

/-- What is shown of the name of a file can be read off its path, below one and the same root. -/
theorem map_shown_fileName?_congr {others : Place}
    (h : (SourceFile.at root names).path = (SourceFile.at root others).path) :
    (fileName? (SourceFile.at root names).location).map RawText.shown
      = (fileName? (SourceFile.at root others).location).map RawText.shown := by
  have hshown : (innerParts (pathOf names).bytes).map (fun part => part.text.shown)
      = (innerParts (pathOf others).bytes).map fun part => part.text.shown := by
    rw [← filter_splitText_path_at root, h, filter_splitText_path_at]
  have hlast := congrArg List.getLast? hshown
  rw [List.getLast?_map, List.getLast?_map] at hlast
  rw [fileName?, fileName?, parts_location_at, parts_location_at, List.getLast?_append,
    List.getLast?_append]
  cases hp : (innerParts (pathOf names).bytes).getLast? with
  | none =>
      cases hq : (innerParts (pathOf others).bytes).getLast? with
      | none => rfl
      | some q => simp [hp, hq] at hlast
  | some p =>
      cases hq : (innerParts (pathOf others).bytes).getLast? with
      | none => simp [hp, hq] at hlast
      | some q =>
          have hsame : p.text.shown = q.text.shown := by simpa [hp, hq] using hlast
          rw [Option.some_or, Option.some_or, Option.bind_some, Option.bind_some,
            (inner_of_mem_innerParts (List.mem_of_getLast? hp)).map_shown_name?,
            (inner_of_mem_innerParts (List.mem_of_getLast? hq)).map_shown_name?, hsame]

/-- The extension of a file is that of the name that is shown. -/
theorem extension_at (root names : Place) : (SourceFile.at root names).extension
    = Text.lower ((((fileName? (SourceFile.at root names).location).map RawText.shown).bind
        fun name => (cutShown name).2).getD "") := by
  rw [← map_shown_extension?]
  rfl

/-- Two files of a repository with the same path have the same name and extension. -/
theorem name_extension_eq_of_path_eq {others : Place}
    (h : (SourceFile.at root names).path = (SourceFile.at root others).path) :
    (SourceFile.at root names).name = (SourceFile.at root others).name ∧
      (SourceFile.at root names).extension = (SourceFile.at root others).extension := by
  have hname := map_shown_fileName?_congr h
  exact ⟨congrArg (Option.getD · "") hname, by rw [extension_at, extension_at, hname]⟩

end SourceFile

/-! ## The files of a repository -/

section

variable {tree : FileTree} {root : Place} {settings : DiscoverySettings} {a b : SourceFile}

/-- Files of one repository with the same path have the same name and extension. -/
theorem name_extension_eq_of_mem (ha : a ∈ repositoryFiles tree root settings)
    (hb : b ∈ repositoryFiles tree root settings) (h : a.path = b.path) :
    a.name = b.name ∧ a.extension = b.extension := by
  obtain ⟨as, rfl⟩ := exists_at_of_mem_discover ha
  obtain ⟨bs, rfl⟩ := exists_at_of_mem_discover hb
  exact SourceFile.name_extension_eq_of_path_eq h

/-- **The path of a file tells its node**, so files that share a path share a node. -/
theorem node_eq_of_path_eq (ha : a ∈ repositoryFiles tree root settings)
    (hb : b ∈ repositoryFiles tree root settings) (h : a.path = b.path) : a.node = b.node := by
  obtain ⟨hname, hextension⟩ := name_extension_eq_of_mem ha hb h
  simp only [SourceFile.node, SourceFile.id, SourceFile.dottedExtension, h, hname, hextension]

/-- The path of a file tells its language. -/
theorem language_eq_of_path_eq (ha : a ∈ repositoryFiles tree root settings)
    (hb : b ∈ repositoryFiles tree root settings) (h : a.path = b.path) :
    a.language = b.language := by
  rw [SourceFile.language, SourceFile.language, (name_extension_eq_of_mem ha hb h).2]

end

end Cartograph
