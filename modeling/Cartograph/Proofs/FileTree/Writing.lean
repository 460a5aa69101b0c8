import Cartograph.Proofs.FileTree.Outline

/-!
# Writing files

To write a file is to change what stands at one place, the place to which the path leads, links on
the way being followed: nothing changes or a file stands there with the bytes that got into it
(`writes_write`). All that a path depends on stays as it was, so the same path leads to the same
place afterwards, and what was written is read there (`readBytes_write`).
-/

namespace Cartograph.FileTree

/-! ## What stands at a place -/

/-- What stands at a place by itself. What is in a directory stands at other places. -/
inductive Standing where
  | file (bytes : List UInt8)
  | link (target : RawText)
  | directory
  deriving DecidableEq

/-- What a tree is by itself. -/
def standing : FileTree → Standing
  | .file bytes => .file bytes
  | .link target => .link target
  | .directory _ => .directory

/-- What stands at a place, if anything does. -/
def standing? (tree : FileTree) (place : Place) : Option Standing :=
  (tree.get? place).map standing

/-- The trees differ at one place at most. -/
def SameBut (place : Place) (tree other : FileTree) : Prop :=
  ∀ elsewhere, elsewhere ≠ place → other.standing? elsewhere = tree.standing? elsewhere

section

variable {tree other : FileTree} {place : Place} {entries : List (RawText × FileTree)}

theorem get?_concat (h : tree.get? place = some (.directory entries)) (name : RawText) :
    tree.get? (place ++ [name]) = child? name entries := by
  rw [get?_append, h, Option.bind_some, get?]
  cases child? name entries <;> rfl

theorem standing?_eq_directory_iff :
    tree.standing? place = some .directory ↔
      ∃ entries, tree.get? place = some (.directory entries) := by
  rw [standing?, Option.map_eq_some_iff]
  constructor
  · rintro ⟨found, hfound, hstanding⟩
    cases found with
    | directory entries => exact ⟨entries, hfound⟩
    | file bytes => cases hstanding
    | link target => cases hstanding
  · rintro ⟨entries, hentries⟩
    exact ⟨_, hentries, rfl⟩

theorem standing?_eq_link_iff {target : RawText} :
    tree.standing? place = some (.link target) ↔ tree.get? place = some (.link target) := by
  rw [standing?, Option.map_eq_some_iff]
  constructor
  · rintro ⟨found, hfound, hstanding⟩
    cases found with
    | link other =>
        obtain rfl := Standing.link.inj hstanding
        exact hfound
    | file bytes => cases hstanding
    | directory entries => cases hstanding
  · exact fun h => ⟨_, h, rfl⟩

/-! ## Trees that differ at one place -/

namespace SameBut

variable {elsewhere : Place} {bytes : List UInt8}

/-- A directory is one in the other tree as well, if it is not the place. -/
theorem get?_directory (hsame : SameBut place tree other) (hne : elsewhere ≠ place)
    (h : tree.get? elsewhere = some (.directory entries)) :
    ∃ inner, other.get? elsewhere = some (.directory inner) := by
  rw [← standing?_eq_directory_iff, hsame elsewhere hne, standing?_eq_directory_iff]
  exact ⟨entries, h⟩

/-- A link is the same link in the other tree, if it is not the place. -/
theorem get?_link (hsame : SameBut place tree other) (hne : elsewhere ≠ place) {target : RawText}
    (h : tree.get? elsewhere = some (.link target)) :
    other.get? elsewhere = some (.link target) := by
  rwa [← standing?_eq_link_iff, hsame elsewhere hne, standing?_eq_link_iff]

/-- Where something is that is no link there is something that is none in the other tree, if that
has a file at the place. -/
theorem exists_resolved (hsame : SameBut place tree other)
    (hfile : other.get? place = some (.file bytes)) {found : FileTree}
    (h : tree.get? elsewhere = some found) (hlink : ∀ target, found ≠ .link target) :
    ∃ kept, other.get? elsewhere = some kept ∧ ∀ target, kept ≠ .link target := by
  by_cases hplace : elsewhere = place
  · rw [hplace]
    exact ⟨_, hfile, fun _ => FileTree.noConfusion⟩
  · have hkept := hsame elsewhere hplace
    rw [standing?, standing?, h, Option.map_some, Option.map_eq_some_iff] at hkept
    obtain ⟨kept, hkept, hstanding⟩ := hkept
    refine ⟨kept, hkept, ?_⟩
    rintro target rfl
    cases found with
    | link target' => exact hlink target' rfl
    | file _ => cases hstanding
    | directory _ => cases hstanding

end SameBut

end

/-! ## Putting a file -/

section

variable {tree : FileTree} {above : Place} {name : RawText} {entries : List (RawText × FileTree)}

/-- **Putting a file into a directory** changes nothing but what stands there, as long as that is no
directory. -/
theorem sameBut_put (habove : tree.get? above = some (.directory entries))
    (hleaf : ∀ below, child? name entries ≠ some (.directory below)) (bytes : List UInt8) :
    SameBut (above ++ [name]) tree (put (.file bytes) (above ++ [name]) tree) := by
  intro elsewhere hne
  induction above generalizing tree elsewhere with
  | nil =>
      obtain rfl : tree = .directory entries := Option.some.inj habove
      rw [List.nil_append, put, put]
      cases elsewhere with
      | nil => rfl
      | cons n deeper =>
          rw [standing?, standing?, get?, get?]
          by_cases hname : n = name
          · subst hname
            -- the file and what it gives way to have nothing below them
            have hdeeper : deeper ≠ [] := by
              rintro rfl
              exact hne rfl
            obtain ⟨m, rest, rfl⟩ := List.exists_cons_of_ne_nil hdeeper
            rw [child?_setChild_self]
            cases hchild : child? n entries with
            | none => rfl
            | some below =>
                cases below with
                | file _ => rfl
                | link _ => rfl
                | directory inner => exact absurd hchild (hleaf inner)
          · rw [child?_setChild_of_ne hname]
  | cons first rest ih =>
      cases tree with
      | file _ => cases habove
      | link _ => cases habove
      | directory outer =>
          obtain ⟨below, hchild, hbelow⟩ := get?_directory_cons.mp habove
          rw [List.cons_append, put, hchild, Option.getD_some]
          cases elsewhere with
          | nil => rfl
          | cons n deeper =>
              rw [standing?, standing?, get?, get?]
              by_cases hname : n = first
              · subst hname
                rw [child?_setChild_self, hchild]
                exact ih hbelow deeper fun heq => hne (congrArg (n :: ·) heq)
              · rw [child?_setChild_of_ne hname]

end

/-! ## Where paths lead -/

/-- A place to which a path may lead: a directory, or a place in a directory that has no link. -/
inductive Reached (tree : FileTree) : Place → Prop
  | directory {place : Place} {entries : List (RawText × FileTree)}
      (there : tree.get? place = some (.directory entries)) : Reached tree place
  | entry {above : Place} {entries : List (RawText × FileTree)} (name : RawText)
      (there : tree.get? above = some (.directory entries))
      (resolved : ∀ target, child? name entries ≠ some (.link target)) :
      Reached tree (above ++ [name])

section

variable {tree other : FileTree} {reaches : Place → Bool} {here place : Place}

/-- What is there is a directory if it has entries. -/
theorem get?_of_entries {entries : List (RawText × FileTree)}
    (h : (tree.get? here).bind entries? = some entries) :
    tree.get? here = some (.directory entries) := by
  obtain ⟨found, hfound, hentries⟩ := Option.bind_eq_some_iff.mp h
  cases found with
  | directory inner =>
      obtain rfl := Option.some.inj hentries
      exact hfound
  | file _ => cases hentries
  | link _ => cases hentries

/-- A directory is in a directory, or it is the root. -/
theorem reached_dropLast {entries : List (RawText × FileTree)}
    (h : tree.get? here = some (.directory entries)) : Reached tree here.dropLast := by
  rcases List.eq_nil_or_concat here with rfl | ⟨above, name, rfl⟩
  · exact .directory h
  · rw [List.concat_eq_append] at h ⊢
    rw [List.dropLast_concat]
    obtain ⟨outer, houter⟩ := exists_directory_of_get?_append h (List.cons_ne_nil _ _)
    exact .directory houter

theorem pathParts_ne_nil (path : RawText) : pathParts path ≠ [] := by
  rw [pathParts, Ne, List.map_eq_nil_iff]
  exact Text.pieces_ne_nil _ _

theorem reached_of_locateFrom {links : Nat} {parts : List RawText}
    (hstart : parts ≠ [] ∨ Reached tree here)
    (h : tree.locateFrom reaches links here parts = .ok place) : Reached tree place := by
  -- whatever the last part of the path is, it is looked up in a directory
  fun_induction locateFrom tree reaches links here parts with
  | case1 links here =>
      obtain rfl := Except.ok.inj h
      exact hstart.resolve_left fun hne => hne rfl
  | case3 links here part rest entries hentries hstay ih =>
      exact ih (.inr (.directory (get?_of_entries hentries))) h
  | case4 links here rest entries hentries hstay ih =>
      exact ih (.inr (reached_dropLast (get?_of_entries hentries))) h
  | case7 here part rest entries hentries hstay hup hlong target hchild links ih =>
      refine ih (.inl ?_) h
      exact fun hnil => pathParts_ne_nil target (List.append_eq_nil_iff.mp hnil).1
  | case8 links here part rest entries hentries hstay hup hlong below hlink hchild ih =>
      refine ih (.inr (.entry part (get?_of_entries hentries) fun target htarget => ?_)) h
      exact hlink target (Option.some.inj (hchild.symm.trans htarget))
  | case9 links here part entries hentries hstay hup hlong hchild =>
      obtain rfl := Except.ok.inj h
      refine .entry part (get?_of_entries hentries) fun target htarget => ?_
      rw [hchild] at htarget
      cases htarget
  | _ => cases h

/-- The same path leads to a file that has been put where the path led before. -/
theorem locateFrom_sameBut {links : Nat} {parts : List RawText} {bytes : List UInt8}
    (hsame : SameBut place tree other) (hfile : other.get? place = some (.file bytes))
    (hlink : ∀ target, tree.get? place ≠ some (.link target))
    (hdirectory : ∀ entries, tree.get? place ≠ some (.directory entries))
    (h : tree.locateFrom reaches links here parts = .ok place) :
    other.locateFrom reaches links here parts = .ok place := by
  have hthere : ∀ {there : Place} {entries : List (RawText × FileTree)},
      tree.get? there = some (.directory entries) →
        ∃ inner, other.get? there = some (.directory inner) := by
    intro there entries hentries
    refine hsame.get?_directory ?_ hentries
    rintro rfl
    exact hdirectory entries hentries
  fun_induction locateFrom tree reaches links here parts with
  | case1 links here => rw [locateFrom, h]
  | case3 links here part rest entries hentries hstay ih =>
      obtain ⟨inner, hinner⟩ := hthere (get?_of_entries hentries)
      rw [locateFrom, hinner]
      simp only [Option.bind_some, entries?, if_pos hstay]
      exact ih h
  | case4 links here rest entries hentries hstay ih =>
      obtain ⟨inner, hinner⟩ := hthere (get?_of_entries hentries)
      rw [locateFrom, hinner]
      simp only [Option.bind_some, entries?, if_neg hstay, if_true]
      exact ih h
  | case7 here part rest entries hentries hstay hup hlong target hchild links ih =>
      obtain ⟨inner, hinner⟩ := hthere (get?_of_entries hentries)
      have hstands : tree.get? (here ++ [part]) = some (.link target) :=
        (get?_concat (get?_of_entries hentries) part).trans hchild
      have hkept : child? part inner = some (.link target) := by
        rw [← get?_concat hinner]
        refine hsame.get?_link ?_ hstands
        rintro rfl
        exact hlink target hstands
      rw [locateFrom, hinner]
      simp only [Option.bind_some, entries?, if_neg hstay, if_neg hup, if_neg hlong, hkept]
      exact ih h
  | case8 links here part rest entries hentries hstay hup hlong below hbelow hchild ih =>
      obtain ⟨inner, hinner⟩ := hthere (get?_of_entries hentries)
      obtain ⟨found, hfound, hresolved⟩ := hsame.exists_resolved hfile
        ((get?_concat (get?_of_entries hentries) part).trans hchild) hbelow
      rw [get?_concat hinner] at hfound
      rw [locateFrom, hinner]
      simp only [Option.bind_some, entries?, if_neg hstay, if_neg hup, if_neg hlong, hfound]
      cases found with
      | link target => exact absurd rfl (hresolved target)
      | file _ => exact ih h
      | directory _ => exact ih h
  | case9 links here part entries hentries hstay hup hlong hchild =>
      obtain ⟨inner, hinner⟩ := hthere (get?_of_entries hentries)
      obtain rfl := Except.ok.inj h
      rw [get?_concat hinner] at hfile
      rw [locateFrom, hinner]
      simp only [Option.bind_some, entries?, if_neg hstay, if_neg hup, if_neg hlong, hfile]
      rw [locateFrom]
  | _ => cases h

end

/-! ## Writing -/

/-- The path leads to a place in a directory where a file is or may be made. -/
structure Takes (tree : FileTree) (here : Place) (path : RawText) (place : Place) : Prop where
  located : tree.locate here path = .ok place
  inside : ∃ above name entries, place = above ++ [name] ∧
    tree.get? above = some (.directory entries)
  not_directory : ∀ entries, tree.get? place ≠ some (.directory entries)
  not_link : ∀ target, tree.get? place ≠ some (.link target)

section

variable {tree : FileTree} {here place : Place} {path : RawText} {bytes : List UInt8}

/-- A path that can be written to leads to a place that is no directory. -/
theorem located_of_placeToWrite (h : tree.placeToWrite here path = .ok place) :
    tree.locate here path = .ok place ∧ ∀ entries, tree.get? place ≠ some (.directory entries) := by
  unfold placeToWrite at h
  split at h
  · -- with a separator at its end a path names no file, whatever is there
    cases hplace : tree.locate here (withoutTrailing path) with
    | error cause =>
        rw [hplace] at h
        cases h
    | ok there =>
        simp only [hplace, bind, Except.bind] at h
        split at h <;> cases h
  · cases hplace : tree.locate here path with
    | error cause =>
        rw [hplace] at h
        cases h
    | ok there =>
        simp only [hplace, bind, Except.bind] at h
        split at h
        · cases h
        · rename_i hleaf
          obtain rfl : there = place := Except.ok.inj h
          exact ⟨rfl, hleaf⟩

theorem takes_of_placeToWrite (h : tree.placeToWrite here path = .ok place) :
    tree.Takes here path place := by
  obtain ⟨hplace, hleaf⟩ := located_of_placeToWrite h
  have hreached : Reached tree place := by
    unfold locate at hplace
    split at hplace
    · cases hplace
    · split at hplace
      · cases hplace
      · exact reached_of_locateFrom (.inl (pathParts_ne_nil path)) hplace
  cases hreached with
  | directory there => exact absurd there (hleaf _)
  | entry name there resolved =>
      refine ⟨hplace, ⟨_, name, _, rfl, there⟩, hleaf, fun target htarget => ?_⟩
      rw [get?_concat there] at htarget
      exact resolved target htarget

/-- A file that is put where the path leads is all that changes. -/
theorem Takes.sameBut (h : tree.Takes here path place) (bytes : List UInt8) :
    SameBut place tree (put (.file bytes) place tree) := by
  obtain ⟨above, name, entries, rfl, habove⟩ := h.inside
  refine sameBut_put habove (fun below hbelow => ?_) bytes
  exact h.not_directory below ((get?_concat habove name).trans hbelow)

/-- The path leads to the file that has been put where it leads. -/
theorem Takes.locate_put (h : tree.Takes here path place) (bytes : List UInt8) :
    (put (.file bytes) place tree).locate here path = .ok place := by
  have hplace := h.located
  unfold locate at hplace ⊢
  split at hplace
  · cases hplace
  · split at hplace
    · cases hplace
    · rename_i hempty hlong
      rw [if_neg hempty, if_neg hlong]
      exact locateFrom_sameBut (h.sameBut bytes) (get?_put_self _ place tree) h.not_link
        h.not_directory hplace

/-- What has become of a tree into which bytes were to be written at a path. -/
inductive Writes (faultAt? : Place → List UInt8 → Option WriteFault) (tree : FileTree)
    (here : Place) (path : RawText) (bytes : List UInt8) : Written → Prop
  /-- The file was not opened. -/
  | unopened (cause : FileError) :
      Writes faultAt? tree here path bytes { tree, fault? := some cause }
  /-- All bytes are in the file. -/
  | whole {place : Place} (leads : tree.placeToWrite here path = .ok place)
      (fault : faultAt? place bytes = none) :
      Writes faultAt? tree here path bytes { tree := put (.file bytes) place tree }
  /-- Only the first bytes are in the file. -/
  | cut {place : Place} {kept : Nat} {cause : FileError}
      (leads : tree.placeToWrite here path = .ok place)
      (fault : faultAt? place bytes = some (.cut kept cause)) :
      Writes faultAt? tree here path bytes
        { tree := put (.file (bytes.take kept)) place tree, fault? := some cause }

variable (faultAt? : Place → List UInt8 → Option WriteFault)

/-- **Writing** leaves the tree as it is, or a file stands where the path leads. -/
theorem writes_write (tree : FileTree) (here : Place) (path : RawText) (bytes : List UInt8) :
    Writes faultAt? tree here path bytes (tree.write faultAt? here path bytes) := by
  unfold write
  cases hplace : tree.placeToWrite here path with
  | error cause => exact .unopened cause
  | ok place =>
      cases hfault : faultAt? place bytes with
      | none => simpa only [hfault] using .whole hplace hfault
      | some fault =>
          cases fault with
          | unopened cause => simpa only [hfault] using .unopened cause
          | cut kept cause => simpa only [hfault] using .cut hplace hfault

/-- **What was written is read** at the same path. -/
theorem readBytes_write (h : (tree.write faultAt? here path bytes).fault? = none) :
    (tree.write faultAt? here path bytes).tree.readBytes here path = .ok bytes := by
  have hwrites := writes_write faultAt? tree here path bytes
  generalize tree.write faultAt? here path bytes = written at h hwrites ⊢
  cases hwrites with
  | unopened cause => cases h
  | whole leads fault =>
      exact readBytes_of_locate ((takes_of_placeToWrite leads).locate_put bytes)
        (get?_put_self _ _ tree)
  | cut leads fault => cases h

end

end Cartograph.FileTree
