import Cartograph.Analysis
import Cartograph.Proofs.FileTree.Listing

/-!
# What does not depend on the contents of files

The outline of a tree has all of its entries, but every file is empty. Where a path leads, what is a
file and what a directory, and which files are found depend on the outline only. So trees that
differ in the contents of files alone agree about all of that.
-/

namespace Cartograph

namespace FileTree

/-! ## Outlines -/

mutual

/-- The tree with every file emptied. -/
def outline : FileTree → FileTree
  | .directory entries => .directory (outlineEntries entries)
  | .file _ => .file []
  | .link target => .link target

/-- The entries with every file emptied. -/
def outlineEntries : List (RawText × FileTree) → List (RawText × FileTree)
  | [] => []
  | (name, tree) :: rest => (name, tree.outline) :: outlineEntries rest

end

/-- The trees differ in the contents of files only. -/
def SameEntries (tree other : FileTree) : Prop :=
  tree.outline = other.outline

theorem outlineEntries_eq (entries : List (RawText × FileTree)) :
    outlineEntries entries = entries.map fun entry => (entry.1, entry.2.outline) := by
  induction entries with
  | nil => rfl
  | cons entry rest ih =>
      obtain ⟨name, tree⟩ := entry
      rw [outlineEntries, ih, List.map_cons]

/-! ## Looking -/

theorem child?_outlineEntries (name : RawText) (entries : List (RawText × FileTree)) :
    child? name (outlineEntries entries) = (child? name entries).map outline := by
  induction entries with
  | nil => rfl
  | cons entry rest ih =>
      obtain ⟨n, t⟩ := entry
      rw [outlineEntries, child?, child?, ih]
      split <;> rfl

theorem outlineEntries_setChild (name : RawText) (tree : FileTree)
    (entries : List (RawText × FileTree)) : outlineEntries (setChild name tree entries)
      = setChild name tree.outline (outlineEntries entries) := by
  induction entries with
  | nil => rfl
  | cons entry rest ih =>
      obtain ⟨n, t⟩ := entry
      rw [outlineEntries, setChild, setChild, ← ih]
      split <;> rfl

/-- An entry that is put where it stands changes nothing. -/
theorem setChild_of_child?_eq_some {name : RawText} {tree : FileTree}
    {entries : List (RawText × FileTree)} (h : child? name entries = some tree) :
    setChild name tree entries = entries := by
  induction entries with
  | nil => cases h
  | cons entry rest ih =>
      obtain ⟨n, t⟩ := entry
      rw [child?] at h
      rw [setChild]
      split
      · rename_i hname
        rw [if_pos hname] at h
        rw [Option.some.inj h]
      · rename_i hname
        rw [if_neg hname] at h
        rw [ih h]

theorem get?_outline (place : Place) (tree : FileTree) :
    tree.outline.get? place = (tree.get? place).map outline := by
  induction place generalizing tree with
  | nil => rfl
  | cons name rest ih =>
      cases tree with
      | file bytes => rfl
      | link target => rfl
      | directory entries =>
          rw [outline, get?, get?, child?_outlineEntries]
          cases child? name entries with
          | none => rfl
          | some below => exact ih below

@[simp] theorem entries?_outline (tree : FileTree) :
    tree.outline.entries? = tree.entries?.map outlineEntries := by
  cases tree <;> rfl

@[simp] theorem isFile_outline (tree : FileTree) : tree.outline.isFile = tree.isFile := by
  cases tree <;> rfl

@[simp] theorem isDirectory_outline (tree : FileTree) :
    tree.outline.isDirectory = tree.isDirectory := by
  cases tree <;> rfl

/-! ## Paths -/

theorem entriesAt_outline (tree : FileTree) (here : Place) :
    (tree.outline.get? here).bind entries?
      = ((tree.get? here).bind entries?).map outlineEntries := by
  rw [get?_outline]
  cases tree.get? here with
  | none => rfl
  | some found => exact entries?_outline found

/-- **Where a path leads** does not depend on what files hold. -/
theorem locateFrom_outline (tree : FileTree) (reaches : Place → Bool) (links : Nat) (here : Place)
    (parts : List RawText) :
    tree.outline.locateFrom reaches links here parts
      = tree.locateFrom reaches links here parts := by
  -- a step asks for the entries of a directory and for one of them, and goes on from there
  fun_induction locateFrom tree reaches links here parts with
  | case1 => rw [locateFrom]
  | case2 links here part rest hnone =>
      rw [locateFrom, entriesAt_outline, hnone]
      rfl
  | case3 links here part rest entries hentries hstay ih =>
      rw [locateFrom, entriesAt_outline, hentries, Option.map_some]
      simp only [if_pos hstay, ih]
  | case4 links here rest entries hentries hstay ih =>
      rw [locateFrom, entriesAt_outline, hentries, Option.map_some]
      simp only [if_neg hstay, if_true, ih]
  | case5 links here part rest entries hentries hstay hup hlong =>
      rw [locateFrom, entriesAt_outline, hentries, Option.map_some]
      simp only [if_neg hstay, if_neg hup, if_pos hlong]
  | case6 here part rest entries hentries hstay hup hlong target hchild =>
      rw [locateFrom, entriesAt_outline, hentries, Option.map_some]
      simp only [if_neg hstay, if_neg hup, if_neg hlong, child?_outlineEntries, hchild]
      rfl
  | case7 here part rest entries hentries hstay hup hlong target hchild links ih =>
      rw [locateFrom, entriesAt_outline, hentries, Option.map_some]
      simp only [if_neg hstay, if_neg hup, if_neg hlong, child?_outlineEntries, hchild]
      exact ih
  | case8 links here part rest entries hentries hstay hup hlong below hlink hchild ih =>
      rw [locateFrom, entriesAt_outline, hentries, Option.map_some]
      simp only [if_neg hstay, if_neg hup, if_neg hlong, child?_outlineEntries, hchild]
      cases below with
      | link target => exact absurd rfl (hlink target)
      | file bytes => exact ih
      | directory entries => exact ih
  | case9 links here part entries hentries hstay hup hlong hchild =>
      rw [locateFrom, entriesAt_outline, hentries, Option.map_some]
      simp only [if_neg hstay, if_neg hup, if_neg hlong, child?_outlineEntries, hchild]
      rfl
  | case10 links here part rest entries hentries hstay hup hlong hchild hrest =>
      rw [locateFrom, entriesAt_outline, hentries, Option.map_some]
      simp only [if_neg hstay, if_neg hup, if_neg hlong, child?_outlineEntries, hchild]
      exact if_neg hrest

theorem locate_outline (tree : FileTree) (here : Place) (path : RawText) :
    tree.outline.locate here path = tree.locate here path := by
  rw [locate, locate, locateFrom_outline]

/-- What a path leads to in the outline is the outline of what it leads to. -/
theorem resolve_outline (tree : FileTree) (here : Place) (path : RawText) :
    tree.outline.resolve here path
      = (tree.resolve here path).map fun found => (found.1, found.2.outline) := by
  rw [resolve, resolve, locate_outline]
  cases tree.locate here path with
  | error e => rfl
  | ok place =>
      simp only [bind, Except.bind, get?_outline]
      cases tree.get? place <;> rfl

theorem isFileAt_outline (tree : FileTree) (here : Place) (path : RawText) :
    tree.outline.isFileAt here path = tree.isFileAt here path := by
  rw [isFileAt, isFileAt, resolve_outline]
  cases tree.resolve here path with
  | error e => rfl
  | ok found => exact isFile_outline found.2

theorem isDirectoryAt_outline (tree : FileTree) (here : Place) (path : RawText) :
    tree.outline.isDirectoryAt here path = tree.isDirectoryAt here path := by
  rw [isDirectoryAt, isDirectoryAt, resolve_outline]
  cases tree.resolve here path with
  | error e => rfl
  | ok found => exact isDirectory_outline found.2

theorem realPath_outline (tree : FileTree) (here : Place) (path : RawText) :
    tree.outline.realPath here path = tree.realPath here path := by
  rw [realPath, realPath, locateFrom_outline]
  cases path.isEmpty with
  | true => rfl
  | false =>
      cases tree.locateFrom hasShortPath linkLimit (startOf here path) (pathParts path) with
      | error e => rfl
      | ok place =>
          simp only [bind, Except.bind, get?_outline]
          cases tree.get? place <;> rfl

/-! ## Listings -/

theorem arrange_outline (tree : FileTree) : tree.outline.arrange = tree.arrange.outline := by
  induction tree using FileTree.induction with
  | file bytes => rfl
  | link target => rfl
  | directory entries ih =>
      rw [arrange_directory, outline, arrange_directory, outline, outlineEntries_eq,
        outlineEntries_eq, arranged, arranged, List.map_mergeSort]
      · rw [List.map_map, List.map_map]
        congr 2
        exact List.map_congr_left fun entry hentry => Prod.ext rfl (ih entry hentry)
      · exact fun a _ b _ => rfl

theorem listTree_outline (enters : Place → Bool) (place : Place) (tree : FileTree) :
    listTree enters place tree.outline
      = (listTree enters place tree).map fun entry => (entry.1, entry.2.outline) := by
  induction tree using FileTree.induction generalizing place with
  | file bytes => rfl
  | link target => rfl
  | directory entries ih =>
      rw [outline, listTree, listTree, outlineEntries_eq]
      split
      · rw [listEntries_eq, listEntries_eq, List.flatMap_map, List.map_flatMap]
        exact List.flatMap_congr fun entry hentry => ih entry hentry _
      · rfl

theorem listing_outline (enters : Place → Bool) (tree : FileTree) : tree.outline.listing enters
    = (tree.listing enters).map fun entry => (entry.1, entry.2.outline) := by
  cases tree with
  | file bytes => rfl
  | link target => rfl
  | directory entries =>
      rw [outline, listing_directory, listing_directory, ← outline, arrange_outline,
        listTree_outline]

/-! ## Changing one file -/

/-- A place in a directory is a place below one of its entries. -/
theorem get?_directory_cons {name : RawText} {rest : Place} {entries : List (RawText × FileTree)}
    {found : FileTree} : get? (name :: rest) (.directory entries) = some found ↔
      ∃ below, child? name entries = some below ∧ below.get? rest = some found := by
  rw [get?]
  cases child? name entries <;> simp

variable {tree : FileTree} {place : Place} {bytes new : List UInt8}

/-- **A file that gives way to another** leaves the outline as it was. -/
theorem outline_put (h : tree.get? place = some (.file bytes)) :
    (put (.file new) place tree).outline = tree.outline := by
  induction place generalizing tree with
  | nil =>
      rw [Option.some.inj h]
      rfl
  | cons name rest ih =>
      cases tree with
      | file bytes => cases h
      | link target => cases h
      | directory entries =>
          obtain ⟨below, hchild, hbelow⟩ := get?_directory_cons.mp h
          have hsame : child? name (outlineEntries entries) = some below.outline := by
            rw [child?_outlineEntries, hchild, Option.map_some]
          rw [put, hchild, Option.getD_some, outline, outlineEntries_setChild, ih hbelow,
            setChild_of_child?_eq_some hsame, outline]

/-- Files elsewhere keep what they hold. -/
theorem get?_put_of_ne {other : Place} {kept : List UInt8}
    (h : tree.get? place = some (.file bytes)) (hne : other ≠ place)
    (hother : tree.get? other = some (.file kept)) :
    (put (.file new) place tree).get? other = some (.file kept) := by
  induction place generalizing tree other with
  | nil =>
      rw [Option.some.inj h] at hother
      cases other with
      | nil => exact absurd rfl hne
      | cons name rest => cases hother
  | cons name rest ih =>
      cases tree with
      | file bytes => cases h
      | link target => cases h
      | directory entries =>
          obtain ⟨below, hchild, hbelow⟩ := get?_directory_cons.mp h
          cases other with
          | nil => cases hother
          | cons n deeper =>
              obtain ⟨next, hnext, hdeeper⟩ := get?_directory_cons.mp hother
              rw [put, hchild, Option.getD_some, get?_directory_cons]
              by_cases hname : n = name
              · subst hname
                obtain rfl : below = next := Option.some.inj (hchild.symm.trans hnext)
                refine ⟨_, child?_setChild_self n _ entries, ih hbelow ?_ hdeeper⟩
                exact fun heq => hne (congrArg (n :: ·) heq)
              · exact ⟨next, (child?_setChild_of_ne hname _ entries).trans hnext, hdeeper⟩

end FileTree

/-! ## Discovery -/

/-- Which repository a path leads to does not depend on what files hold. -/
theorem repositoryAt_outline (tree : FileTree) (here : Place) (path : RawText) :
    repositoryAt tree.outline here path = repositoryAt tree here path := by
  simp only [repositoryAt, FileTree.isDirectoryAt_outline, FileTree.realPath_outline]

/-- **Which files are found** does not depend on what files hold, as long as the same is ignored. -/
theorem discover_outline (tree : FileTree) (root : Place) (settings : DiscoverySettings)
    (ignored : Ignored) :
    discover tree.outline root settings ignored = discover tree root settings ignored := by
  have hcounts : ∀ (names : Place) (leaf : FileTree),
      countsAsFile tree.outline root names leaf.outline = countsAsFile tree root names leaf := by
    intro names leaf
    cases leaf with
    | file bytes => rfl
    | link target => exact FileTree.isFileAt_outline tree [] _
    | directory entries => rfl
  rw [discover, discover, FileTree.get?_outline]
  cases tree.get? root with
  | none => rfl
  | some start =>
      simp only [Option.map_some, FileTree.listing_outline, List.filter_map, List.map_map,
        Function.comp_def, hcounts]

/-! ## Trees with the same entries -/

namespace FileTree.SameEntries

variable {tree other : FileTree}

theorem locate_eq (h : SameEntries tree other) (here : Place) (path : RawText) :
    other.locate here path = tree.locate here path := by
  rw [← locate_outline other, ← h, locate_outline]

theorem repositoryAt_eq (h : SameEntries tree other) (here : Place) (path : RawText) :
    repositoryAt other here path = repositoryAt tree here path := by
  rw [← repositoryAt_outline other, ← h, repositoryAt_outline]

/-- What a path leads to is read the same if it is a file that holds the same. -/
theorem readBytes_eq (h : SameEntries tree other) {here : Place} {path : RawText}
    (hbytes : ∀ place bytes, tree.locate here path = .ok place →
      tree.get? place = some (.file bytes) → other.get? place = some (.file bytes)) :
    other.readBytes here path = tree.readBytes here path := by
  rw [readBytes, readBytes, resolve, resolve, h.locate_eq]
  cases hplace : tree.locate here path with
  | error e => rfl
  | ok place =>
      have houtline : (other.get? place).map outline = (tree.get? place).map outline := by
        rw [← get?_outline, ← h, get?_outline]
      simp only [bind, Except.bind]
      cases hfound : tree.get? place with
      | none =>
          rw [hfound, Option.map_none, Option.map_eq_none_iff] at houtline
          rw [houtline]
      | some found =>
          rw [hfound, Option.map_some, Option.map_eq_some_iff] at houtline
          obtain ⟨there, hthere, houtline⟩ := houtline
          cases found with
          | file bytes => rw [hbytes place bytes hplace hfound]
          | link target =>
              rw [hthere]
              cases there <;> first | rfl | cases houtline
          | directory entries =>
              rw [hthere]
              cases there <;> first | rfl | cases houtline

end FileTree.SameEntries

/-! ## Reading what has been replaced -/

namespace FileTree

variable {tree : FileTree} {here place : Place} {path : RawText} {bytes new : List UInt8}

/-- A path that leads to a file reads what the file holds. -/
theorem readBytes_of_locate (hplace : tree.locate here path = .ok place)
    (h : tree.get? place = some (.file bytes)) : tree.readBytes here path = .ok bytes := by
  rw [readBytes, resolve_eq_ok_iff.mpr ⟨hplace, h⟩]

theorem sameEntries_put (h : tree.get? place = some (.file bytes)) (new : List UInt8) :
    SameEntries tree (put (.file new) place tree) :=
  (outline_put h).symm

/-- What a file holds anew is read wherever a path leads to the file, -/
theorem readBytes_put (h : tree.get? place = some (.file bytes))
    (hplace : tree.locate here path = .ok place) :
    (put (.file new) place tree).readBytes here path = .ok new :=
  readBytes_of_locate (((sameEntries_put h new).locate_eq here path).trans hplace)
    (get?_put_self _ place tree)

/-- and nowhere else. -/
theorem readBytes_put_of_ne (h : tree.get? place = some (.file bytes))
    (hne : tree.locate here path ≠ .ok place) :
    (put (.file new) place tree).readBytes here path = tree.readBytes here path := by
  refine (sameEntries_put h new).readBytes_eq fun other kept hother hkept => ?_
  refine get?_put_of_ne h ?_ hkept
  rintro rfl
  exact hne hother

end FileTree

theorem ignoredIn_congr {tree other : FileTree} {root : Place}
    (h : other.readBytes root ignoreFile = tree.readBytes root ignoreFile)
    (settings : DiscoverySettings) :
    ignoredIn other root settings = ignoredIn tree root settings := by
  rw [ignoredIn, ignoredIn, ignoreRules?, ignoreRules?, h]

/-- **The same files are found** in trees with the same entries and the same ignore file. -/
theorem repositoryFiles_congr {tree other : FileTree} {root : Place}
    (hentries : tree.SameEntries other)
    (hignore : other.readBytes root ignoreFile = tree.readBytes root ignoreFile)
    (settings : DiscoverySettings) :
    repositoryFiles other root settings = repositoryFiles tree root settings := by
  rw [repositoryFiles, repositoryFiles, ignoredIn_congr hignore, ← discover_outline other,
    ← hentries, discover_outline]

end Cartograph
