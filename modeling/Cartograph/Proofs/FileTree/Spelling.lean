import Cartograph.Proofs.FileTree.Paths
import Cartograph.Proofs.FileTree.Writing

/-!
# Where paths lead

Many paths lead to one directory: seen from different places, with dots and separators that change
nothing, up and down again, or over links. What it means that a path leads somewhere is stated part
by part (`Leads`), and a path is a spelling of a directory if it leads there within the limits of a
file system (`Spells`). Main statement: the absolute path of a directory is a spelling of it, unless
a limit stands in its way (`spells_locationOf`), and that is so of every real path that is found
from a place with an absolute path of its own (`spells_of_realPath`).
-/

namespace Cartograph

namespace FileTree

/-! ## Where parts of a path lead -/

/-- The parts of a path lead from one place to another, and so many links are followed on the
way. -/
inductive Leads (tree : FileTree) : Nat → Place → List RawText → Place → Prop
  /-- Without parts one stays where one is. -/
  | done {here : Place} : Leads tree 0 here [] here
  /-- An empty part, as between two separators, stays in a directory, and so does a dot. -/
  | stay {links : Nat} {here there : Place} {part : RawText} {rest : List RawText}
      {entries : List (RawText × FileTree)} (directory : tree.get? here = some (.directory entries))
      (stays : part = "" ∨ part = ".") (further : Leads tree links here rest there) :
      Leads tree links here (part :: rest) there
  /-- Two dots lead up. -/
  | up {links : Nat} {here there : Place} {rest : List RawText}
      {entries : List (RawText × FileTree)} (directory : tree.get? here = some (.directory entries))
      (further : Leads tree links here.dropLast rest there) :
      Leads tree links here (".." :: rest) there
  /-- The name of an entry leads to it. -/
  | down {links : Nat} {here there : Place} {name : RawText} {rest : List RawText}
      {entries : List (RawText × FileTree)} {below : FileTree}
      (directory : tree.get? here = some (.directory entries)) (plain : Plain name)
      (entry : child? name entries = some below) (resolved : ∀ target, below ≠ .link target)
      (further : Leads tree links (here ++ [name]) rest there) :
      Leads tree links here (name :: rest) there
  /-- The name of a link stands for the path of the link, seen from the directory of the link. -/
  | follow {links : Nat} {here there : Place} {name target : RawText} {rest : List RawText}
      {entries : List (RawText × FileTree)} (directory : tree.get? here = some (.directory entries))
      (plain : Plain name) (entry : child? name entries = some (.link target))
      (further : Leads tree links (startOf here target) (pathParts target ++ rest) there) :
      Leads tree (links + 1) here (name :: rest) there

section

variable {tree : FileTree} {reaches : Place → Bool} {here there : Place} {parts : List RawText}
  {links used : Nat}

theorem entries?_of_get? {entries : List (RawText × FileTree)}
    (h : tree.get? here = some (.directory entries)) :
    (tree.get? here).bind entries? = some entries := by
  rw [h]
  rfl

/-- **Where the parts lead is found**, if as many links may be followed as there are on the way. -/
theorem Leads.locateFrom_eq (h : Leads tree used here parts there) (hlinks : used ≤ links) :
    tree.locateFrom anywhere links here parts = .ok there := by
  induction h generalizing links with
  | done => rw [locateFrom]
  | stay directory stays further ih =>
      rw [locateFrom, entries?_of_get? directory]
      simp only [stays, if_true]
      exact ih hlinks
  | up directory further ih =>
      rw [locateFrom, entries?_of_get? directory]
      simp only [if_true]
      exact ih hlinks
  | down directory plain entry resolved further ih =>
      rename_i below
      rw [locateFrom, entries?_of_get? directory]
      simp only [plain.ne_empty, plain.ne_dot, plain.ne_dots, or_self, if_false,
        Nat.not_lt.mpr plain.size_le, anywhere, Bool.true_eq_false, entry]
      cases below with
      | link target => exact absurd rfl (resolved target)
      | file bytes => exact ih hlinks
      | directory inner => exact ih hlinks
  | follow directory plain entry further ih =>
      obtain ⟨left, rfl⟩ := Nat.exists_eq_add_one_of_ne_zero (Nat.ne_zero_of_lt hlinks)
      rw [locateFrom, entries?_of_get? directory]
      simp only [plain.ne_empty, plain.ne_dot, plain.ne_dots, or_self, if_false,
        Nat.not_lt.mpr plain.size_le, anywhere, Bool.true_eq_false, entry]
      exact ih (Nat.le_of_succ_le_succ hlinks)

/-- A part that is looked up is a plain name. -/
theorem plain_of_not {part : RawText} (hstay : ¬ (part = "" ∨ part = ".")) (hup : part ≠ "..")
    (hlong : ¬ (nameLimit < part.size ∨ reaches (here ++ [part]) = false)) : Plain part :=
  ⟨fun heq => hstay (.inl heq), fun heq => hstay (.inr heq), hup,
    Nat.not_lt.mp fun hsize => hlong (.inl hsize)⟩

/-- **The parts lead where they are found to lead**, if something is there. -/
theorem exists_leads_of_locateFrom {found : FileTree} (hfound : tree.get? there = some found)
    (h : tree.locateFrom reaches links here parts = .ok there) :
    ∃ used ≤ links, Leads tree used here parts there := by
  fun_induction locateFrom tree reaches links here parts with
  | case1 links here =>
      obtain rfl := Except.ok.inj h
      exact ⟨0, Nat.zero_le _, .done⟩
  | case3 links here part rest entries hentries hstay ih =>
      obtain ⟨used, hused, further⟩ := ih h
      exact ⟨used, hused, .stay (get?_of_entries hentries) hstay further⟩
  | case4 links here rest entries hentries hstay ih =>
      obtain ⟨used, hused, further⟩ := ih h
      exact ⟨used, hused, .up (get?_of_entries hentries) further⟩
  | case7 here part rest entries hentries hstay hup hlong target hchild links ih =>
      obtain ⟨used, hused, further⟩ := ih h
      exact ⟨used + 1, Nat.succ_le_succ hused,
        .follow (get?_of_entries hentries) (plain_of_not hstay hup hlong) hchild further⟩
  | case8 links here part rest entries hentries hstay hup hlong below hlink hchild ih =>
      obtain ⟨used, hused, further⟩ := ih h
      exact ⟨used, hused,
        .down (get?_of_entries hentries) (plain_of_not hstay hup hlong) hchild hlink further⟩
  | case9 links here part entries hentries hstay hup hlong hchild =>
      -- nothing is there
      obtain rfl := Except.ok.inj h
      rw [get?_concat (get?_of_entries hentries), hchild] at hfound
      cases hfound
  | _ => cases h

/-- The parts of one path and then those of another lead where they lead one after the other. -/
theorem Leads.append {further : List RawText} {more : Nat} {last : Place}
    (h : Leads tree used here parts there) (hmore : Leads tree more there further last) :
    Leads tree (used + more) here (parts ++ further) last := by
  induction h with
  | done => rwa [Nat.zero_add]
  | stay directory stays _ ih => exact .stay directory stays (ih hmore)
  | up directory _ ih => exact .up directory (ih hmore)
  | down directory plain entry resolved _ ih =>
      exact .down directory plain entry resolved (ih hmore)
  | follow directory plain entry _ ih =>
      rw [List.cons_append, Nat.add_right_comm]
      refine .follow directory plain entry ?_
      rw [← List.append_assoc]
      exact ih hmore

end

/-! ## Spellings -/

/-- The path, seen from `here`, leads to the directory at a place, and no limit of a file system
stands in its way. -/
structure Spells (tree : FileTree) (here : Place) (path : RawText) (root : Place) : Prop where
  ne_empty : path ≠ ""
  size_lt : path.size < pathLimit
  leads : ∃ links ≤ linkLimit, Leads tree links (startOf here path) (pathParts path) root
  directory : ∃ entries, tree.get? root = some (.directory entries)

section

variable {tree : FileTree} {here root : Place} {path : RawText}

/-- A path leads to the directory of which it is a spelling. -/
theorem locate_eq_ok_iff_spells (hroot : ∃ entries, tree.get? root = some (.directory entries)) :
    tree.locate here path = .ok root ↔ Spells tree here path root := by
  rw [locate]
  constructor
  · intro h
    split at h
    · cases h
    · rename_i hempty
      split at h
      · cases h
      · rename_i hsize
        obtain ⟨entries, hentries⟩ := hroot
        refine ⟨fun heq => hempty ?_, Nat.not_le.mp hsize,
          exists_leads_of_locateFrom hentries h, entries, hentries⟩
        rw [heq]
        rfl
  · rintro ⟨hempty, hsize, ⟨links, hlinks, hleads⟩, -⟩
    rw [if_neg (fun h => hempty (RawText.isEmpty_iff.mp h)), if_neg (Nat.not_le.mpr hsize)]
    exact hleads.locateFrom_eq hlinks

/-- A path leads to a directory exactly when it is a spelling of one. -/
theorem isDirectoryAt_iff_spells :
    tree.isDirectoryAt here path = true ↔ ∃ root, Spells tree here path root := by
  rw [isDirectoryAt_iff]
  constructor
  · rintro ⟨root, entries, hlocate, hentries⟩
    exact ⟨root, (locate_eq_ok_iff_spells ⟨entries, hentries⟩).mp hlocate⟩
  · rintro ⟨root, h⟩
    obtain ⟨entries, hentries⟩ := h.directory
    exact ⟨root, entries, (locate_eq_ok_iff_spells h.directory).mpr h, hentries⟩

/-- The real path of a spelling, if it is found, is that of the directory. -/
theorem Spells.eq_of_realPath (h : Spells tree here path root) {place : Place}
    (hreal : tree.realPath here path = .ok place) : place = root :=
  (locate_of_realPath hreal ((locate_eq_ok_iff_spells h.directory).mpr h)).symm

/-- What stands behind a path does not matter to where it begins. -/
theorem startOf_append (h : path ≠ "") (here : Place) (more : RawText) :
    startOf here (path ++ more) = startOf here path := by
  have hne : path.bytes ≠ [] := fun hnil => h (congrArg RawText.mk hnil)
  obtain ⟨b, bytes, hbytes⟩ := List.exists_cons_of_ne_nil hne
  have hmore : (path ++ more).bytes = b :: (bytes ++ more.bytes) :=
    congrArg (· ++ more.bytes) hbytes
  rw [startOf, startOf, FilePath.isAbsolute, FilePath.isAbsolute, hmore, hbytes, List.head?_cons,
    List.head?_cons]

/-- A separator parts what stands on either side of it. -/
theorem pathParts_append (path more : RawText) :
    pathParts (path ++ "/" ++ more) = pathParts path ++ pathParts more := by
  have hbytes : (path ++ "/" ++ more).bytes
      = path.bytes ++ FilePath.separator :: more.bytes :=
    List.append_assoc path.bytes [FilePath.separator] more.bytes
  rw [pathParts, hbytes, Text.pieces_append, List.map_append]
  rfl

/-- **A detour** on which no link is followed may stand behind a spelling: separators, dots, or a
name and two dots. -/
theorem Spells.detour (h : Spells tree here path root) {more : RawText}
    (hmore : Leads tree 0 root (pathParts more) root)
    (hsize : (path ++ "/" ++ more).size < pathLimit) :
    Spells tree here (path ++ "/" ++ more) root := by
  obtain ⟨links, hlinks, hleads⟩ := h.leads
  have hassoc : path ++ "/" ++ more = path ++ ("/" ++ more) :=
    congrArg RawText.mk (List.append_assoc _ _ _)
  refine ⟨?_, hsize, ⟨links, hlinks, ?_⟩, h.directory⟩
  · rw [hassoc]
    exact fun hempty =>
      h.ne_empty (congrArg RawText.mk (List.append_eq_nil_iff.mp (congrArg RawText.bytes hempty)).1)
  · rw [pathParts_append, hassoc, startOf_append h.ne_empty]
    exact hleads.append hmore

/-! ## Absolute paths -/

/-- The parts of an absolute path: none in front of the first separator, then the names. -/
theorem pathParts_locationOf (hnames : ∀ name ∈ root, EntryName name) :
    pathParts (locationOf root) = ("" : RawText) :: if root = [] then [""] else root := by
  have hparts : pathParts (locationOf root) = ("" : RawText) :: pathParts (pathOf root) :=
    pathParts_append "" (pathOf root)
  rw [hparts]
  split
  · rename_i hnil
    rw [hnil]
    rfl
  · rename_i hne
    rw [EntryName.pathParts_pathOf hne hnames]

/-- The names that lead to a place and its absolute path are within the limits of a file system. -/
structure WithinLimits (place : Place) : Prop where
  names : ∀ name ∈ place, name.size ≤ nameLimit
  path : (locationOf place).size < pathLimit

/-- **The absolute path of a directory is a spelling of it**, wherever one is. -/
theorem spells_locationOf (hnamed : tree.WellNamed) (hlimits : WithinLimits root)
    (hroot : ∃ entries, tree.get? root = some (.directory entries)) (here : Place) :
    Spells tree here (locationOf root) root := by
  obtain ⟨entries, hentries⟩ := hroot
  have hnames : ∀ name ∈ root, EntryName name := (hnamed.of_get? hentries).2
  have hstart : startOf here (locationOf root) = [] := by
    rw [locationOf, startOf_append (by decide), startOf]
    rfl
  have hplain : ∀ name ∈ root, Plain name := fun name hname =>
    ⟨(hnames name hname).ne_empty, (hnames name hname).ne_dot, (hnames name hname).ne_dots,
      hlimits.names name hname⟩
  have hlocate : tree.locateFrom anywhere 0 [] root = .ok root :=
    locateFrom_eq_ok 0 hplain (fun _ _ => rfl) (show tree.get? ([] ++ root) = _ from hentries)
      fun _ => FileTree.noConfusion
  obtain ⟨top, htop⟩ : ∃ top, tree.get? [] = some (.directory top) := by
    by_cases hnil : root = []
    · exact ⟨entries, hnil ▸ hentries⟩
    · have hbelow : tree.get? ([] ++ root) = some (.directory entries) := hentries
      exact exists_directory_of_get?_append hbelow hnil
  have hleads : ∃ links ≤ linkLimit, Leads tree links [] (pathParts (locationOf root)) root := by
    rw [pathParts_locationOf hnames]
    split
    · rename_i hnil
      subst hnil
      exact ⟨0, Nat.zero_le _, .stay htop (.inl rfl) (.stay htop (.inl rfl) .done)⟩
    · obtain ⟨links, hlinks, further⟩ := exists_leads_of_locateFrom hentries hlocate
      exact ⟨links, hlinks.trans (Nat.zero_le _), .stay htop (.inl rfl) further⟩
  exact ⟨fun hempty => List.cons_ne_nil _ _ (congrArg RawText.bytes hempty), hlimits.path,
    hstart ▸ hleads, entries, hentries⟩

/-! ## Limits on the way -/

/-- A place is not further off than what is below it. -/
theorem size_locationOf_le (above below : Place) :
    (locationOf above).size ≤ (locationOf (above ++ below)).size := by
  have hsize (place : Place) : (locationOf place).size
      = 1 + (Text.glue FilePath.separator (place.map RawText.bytes)).length := by
    rw [Nat.add_comm]
    rfl
  rw [hsize, hsize, List.map_append]
  by_cases habove : above = []
  · subst habove
    exact Nat.le_add_right _ _
  by_cases hbelow : below = []
  · subst hbelow
    rw [List.map_nil, List.append_nil]
  · rw [Text.glue_append (by simpa using habove) (by simpa using hbelow), List.length_append]
    omega

theorem WithinLimits.nil : WithinLimits [] :=
  ⟨nofun, by decide⟩

theorem WithinLimits.dropLast {place : Place} (h : WithinLimits place) :
    WithinLimits place.dropLast := by
  refine ⟨fun name hname => h.names name (List.dropLast_subset place hname), ?_⟩
  by_cases hnil : place = []
  · subst hnil
    exact h.path
  · have hle := size_locationOf_le place.dropLast [place.getLast hnil]
    rw [List.dropLast_append_getLast] at hle
    exact hle.trans_lt h.path

theorem WithinLimits.concat {place : Place} (h : WithinLimits place) {name : RawText}
    (hname : ¬ (nameLimit < name.size ∨ hasShortPath (place ++ [name]) = false)) :
    WithinLimits (place ++ [name]) := by
  rw [not_or, Nat.not_lt, Bool.not_eq_false] at hname
  refine ⟨fun other hother => ?_, of_decide_eq_true hname.2⟩
  rcases List.mem_append.mp hother with hother | hother
  · exact h.names other hother
  · rw [List.mem_singleton.mp hother]
    exact hname.1

theorem WithinLimits.startOf (h : WithinLimits here) (path : RawText) :
    WithinLimits (startOf here path) := by
  rw [FileTree.startOf]
  split
  · exact .nil
  · exact h

/-- **What is found step by step is within the limits**, if that is where one starts. -/
theorem withinLimits_of_locateFrom {links : Nat} {parts : List RawText} {place : Place}
    (hhere : WithinLimits here) (h : tree.locateFrom hasShortPath links here parts = .ok place) :
    WithinLimits place := by
  fun_induction locateFrom tree hasShortPath links here parts with
  | case1 links here =>
      obtain rfl := Except.ok.inj h
      exact hhere
  | case3 links here part rest entries hentries hstay ih => exact ih hhere h
  | case4 links here rest entries hentries hstay ih => exact ih hhere.dropLast h
  | case7 here part rest entries hentries hstay hup hlong target hchild links ih =>
      exact ih (hhere.startOf target) h
  | case8 links here part rest entries hentries hstay hup hlong below hlink hchild ih =>
      exact ih (hhere.concat hlong) h
  | case9 links here part entries hentries hstay hup hlong hchild =>
      obtain rfl := Except.ok.inj h
      exact hhere.concat hlong
  | _ => cases h

/-- **A real path is a spelling of the directory that it leads to**, if names are proper and the
working directory has an absolute path within the limits. -/
theorem spells_of_realPath (hnamed : tree.WellNamed) (hhere : WithinLimits here)
    (hdirectory : tree.isDirectoryAt here path = true)
    (hreal : tree.realPath here path = .ok root) : Spells tree [] (locationOf root) root := by
  obtain ⟨place, hspells⟩ := isDirectoryAt_iff_spells.mp hdirectory
  obtain rfl := hspells.eq_of_realPath hreal
  obtain ⟨-, hlocate, -⟩ := realPath_eq_ok_iff.mp hreal
  exact spells_locationOf hnamed (withinLimits_of_locateFrom (hhere.startOf path) hlocate)
    hspells.directory []

end

end FileTree

end Cartograph
