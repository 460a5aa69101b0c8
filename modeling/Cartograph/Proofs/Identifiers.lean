import Cartograph.Graph.Entity

/-!
# Sorts of identifiers

Every identifier begins with the sort of its entity and a colon, so identifiers of different sorts
differ whatever follows the colon. Main statement: only placeholders have the sort of placeholders
(`sortOf_placeholderId`), which no entity has.
-/

namespace Cartograph

/-- What stands before the first colon of an identifier. -/
def sortOf (id : String) : List Char :=
  id.toList.takeWhile (· ≠ ':')

/-! ## The sort of every identifier -/

@[simp] theorem sortOf_fileId (path : String) : sortOf (fileId path) = "file".toList := by
  simp [sortOf, fileId]

@[simp] theorem sortOf_placeholderId (target : String) :
    sortOf (placeholderId target) = "module".toList := by
  simp [sortOf, placeholderId, placeholderMark]

@[simp] theorem sortOf_classRefId (name : String) :
    sortOf (classRefId name) = "class_ref".toList := by
  simp [sortOf, classRefId]

@[simp] theorem sortOf_classId (path name : String) :
    sortOf (classId path name) = "class".toList := by
  simp [sortOf, classId]

@[simp] theorem sortOf_functionId (path name : String) :
    sortOf (functionId path name) = "func".toList := by
  simp [sortOf, functionId]

@[simp] theorem sortOf_endpointId (path label : String) :
    sortOf (endpointId path label) = "endpoint".toList := by
  simp [sortOf, endpointId]

@[simp] theorem sortOf_modelId (path name : String) :
    sortOf (modelId path name) = "model".toList := by
  simp [sortOf, modelId]

@[simp] theorem sortOf_routerId (path : String) : sortOf (routerId path) = "router".toList := by
  simp [sortOf, routerId]

/-! ## Files -/

/-- A path is read off the identifier of its file. -/
theorem fileId_injective {p q : String} (h : fileId p = fileId q) : p = q := by
  have := congrArg String.toList h
  simpa [fileId, String.toList_inj] using this

/-- An identifier of another sort than a file is no file. -/
theorem ne_fileId {id : String} (h : sortOf id ≠ "file".toList) (path : String) :
    id ≠ fileId path := by
  rintro rfl
  exact h (sortOf_fileId path)

/-- An identifier of another sort than a placeholder is no placeholder. -/
theorem ne_placeholderId {id : String} (h : sortOf id ≠ "module".toList) (target : String) :
    id ≠ placeholderId target := by
  rintro rfl
  exact h (sortOf_placeholderId target)

theorem placeholderId_injective {s t : String} (h : placeholderId s = placeholderId t) : s = t := by
  have := congrArg String.toList h
  simpa [placeholderId, String.toList_inj] using this

theorem classRefId_injective {s t : String} (h : classRefId s = classRefId t) : s = t := by
  have := congrArg String.toList h
  simpa [classRefId, String.toList_inj] using this

/-- Classes of one file are told by their names. -/
theorem classId_injective {path m n : String} (h : classId path m = classId path n) : m = n := by
  have := congrArg String.toList h
  simpa [classId, String.toList_inj] using this

/-- Functions of one file are told by their names. -/
theorem functionId_injective {path m n : String} (h : functionId path m = functionId path n) :
    m = n := by
  have := congrArg String.toList h
  simpa [functionId, String.toList_inj] using this

/-- Endpoints of one file are told by their labels. -/
theorem endpointId_injective {path m n : String} (h : endpointId path m = endpointId path n) :
    m = n := by
  have := congrArg String.toList h
  simpa [endpointId, String.toList_inj] using this

/-- A placeholder is told by what it begins with. -/
theorem placeholderTarget?_eq_none {id : String} (h : ∀ target, id ≠ placeholderId target) :
    placeholderTarget? id = none := by
  rw [Option.eq_none_iff_forall_ne_some]
  intro target ht
  obtain ⟨rest, hrest, -⟩ := Option.map_eq_some_iff.mp ht
  rw [Text.stripLead?_eq_some_iff] at hrest
  apply h (String.ofList rest)
  rw [← String.toList_inj, hrest]
  simp [placeholderId]

/-! ## Names without colons -/

/-- What stands in front of the first colon and what stands behind it are read off the two
together. -/
theorem eq_of_colon_append {p q m n : String} (h : p ++ ":" ++ m = q ++ ":" ++ n)
    (hp : ':' ∉ p.toList) (hq : ':' ∉ q.toList) : p = q ∧ m = n := by
  have hlist : p.toList ++ ':' :: m.toList = q.toList ++ ':' :: n.toList := by
    simpa using congrArg String.toList h
  have hfront : ∀ {s t : List Char}, ':' ∉ s → (s ++ ':' :: t).takeWhile (· ≠ ':') = s := by
    intro s t hs
    have hother : ∀ c ∈ s, decide (c ≠ ':') = true := by
      intro c hc
      rw [decide_eq_true_iff]
      rintro rfl
      exact hs hc
    rw [List.takeWhile_append_of_pos hother, List.takeWhile_cons_of_neg (by simp),
      List.append_nil]
  have hsame : p.toList = q.toList := by
    rw [← hfront hp, hlist, hfront hq]
  rw [hsame] at hlist
  have hbehind := (List.cons.inj (List.append_cancel_left hlist)).2
  exact ⟨String.toList_inj.mp hsame, String.toList_inj.mp hbehind⟩

end Cartograph
