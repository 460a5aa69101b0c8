import Cartograph.Proofs.Text.Case
import Cartograph.Role
import Mathlib

/-!
# The strongest role

Every role that a file can have has a rank. The name of a file gives it a rank, and so does every
directory above it, by its own name alone; the role of the file is the strongest of them. So it does
not matter in which order the directories stand, or how often one of them occurs, or in which case
ASCII letters are written. Main statement: `classify_strongest`.
-/

namespace Cartograph.Role

/-! ## Ranks -/

/-- The roles of files, the weakest first. -/
inductive Rank where
  | file
  | middleware
  | utility
  | service
  | model
  | endpoint
  | config
  | test
  deriving DecidableEq, Repr

namespace Rank

/-- How many roles are weaker. -/
def strength : Rank → Nat
  | .file => 0
  | .middleware => 1
  | .utility => 2
  | .service => 3
  | .model => 4
  | .endpoint => 5
  | .config => 6
  | .test => 7

theorem strength_injective : Function.Injective strength := by
  intro a b
  cases a <;> cases b <;> simp [strength]

instance : LinearOrder Rank := LinearOrder.lift' strength strength_injective

instance : OrderBot Rank where
  bot := .file
  bot_le rank := Nat.zero_le rank.strength

/-- The kind of the nodes of this role. -/
def kind : Rank → NodeKind
  | .file => .file
  | .middleware => .middleware
  | .utility => .utility
  | .service => .service
  | .model => .model
  | .endpoint => .endpoint
  | .config => .config
  | .test => .test

/-- The ranks that are told by the names of directories only, the strongest first. -/
def conferring : List Rank :=
  [.endpoint, .model, .service, .utility, .middleware]

/-- All ranks, the strongest first. -/
def falling : List Rank :=
  .test :: .config :: (conferring ++ [.file])

theorem mem_falling (rank : Rank) : rank ∈ falling := by
  cases rank <;> decide

theorem pairwise_falling : falling.Pairwise fun a b => b ≤ a := by
  decide

end Rank

/-! ## The strongest of several ranks -/

/-- The strongest rank for which something speaks. -/
def strongest (speaks : Rank → Bool) : Rank :=
  (Rank.falling.find? speaks).getD ⊥

/-- What stands first among ranks that never rise is the strongest of them. -/
theorem getD_find?_le_iff {ranks : List Rank} (hfalling : ranks.Pairwise fun a b => b ≤ a)
    (speaks : Rank → Bool) (rank : Rank) :
    (ranks.find? speaks).getD ⊥ ≤ rank ↔ ∀ r ∈ ranks, speaks r = true → r ≤ rank := by
  induction ranks with
  | nil => simp
  | cons first rest ih =>
      rw [List.pairwise_cons] at hfalling
      rw [List.forall_mem_cons]
      cases hspeaks : speaks first with
      | true =>
          rw [List.find?_cons_of_pos hspeaks, Option.getD_some]
          exact ⟨fun h => ⟨fun _ => h, fun r hr _ => (hfalling.1 r hr).trans h⟩, fun h => h.1 rfl⟩
      | false =>
          rw [List.find?_cons_of_neg (by simp [hspeaks]), ih hfalling.2]
          simp

theorem strongest_le_iff {speaks : Rank → Bool} {rank : Rank} :
    strongest speaks ≤ rank ↔ ∀ r, speaks r = true → r ≤ rank := by
  rw [strongest, getD_find?_le_iff Rank.pairwise_falling]
  exact ⟨fun h r => h r (Rank.mem_falling r), fun h r _ => h r⟩

theorem foldr_max_le_iff {ranks : List Rank} {least rank : Rank} :
    ranks.foldr max least ≤ rank ↔ least ≤ rank ∧ ∀ r ∈ ranks, r ≤ rank := by
  induction ranks with
  | nil => simp
  | cons first rest ih =>
      rw [List.foldr_cons, max_le_iff, ih, List.forall_mem_cons, and_left_comm]

/-! ## What names give -/

/-- What the name and the extension of a file speak for. -/
def nameSpeaks (name extension : String) : Rank → Bool
  | .test =>
    Text.holds (stemOf (Text.lower name)) "test" || Text.holds (stemOf (Text.lower name)) "spec"
  | .config => isConfig (Text.lower name) (stemOf (Text.lower name)) (plainExtension extension)
  | _ => false

/-- The names of directories that speak for a role of what is below them. -/
def directoryNames : Rank → List String
  | .test => testDirectories
  | rank => ((directoryRoles.find? fun role => role.1 = rank.kind).map (·.2)).getD []

/-- What the name of a directory speaks for in the files below it. -/
def directorySpeaks (directory : String) (rank : Rank) : Bool :=
  (directoryNames rank).contains (Text.lower directory)

/-- The rank that a file has by its name and its extension. -/
def rankOfName (name extension : String) : Rank :=
  strongest (nameSpeaks name extension)

/-- The rank that a directory gives to the files below it. -/
def rankOfDirectory (directory : String) : Rank :=
  strongest (directorySpeaks directory)

/-- The names of the directories above a file, as they are written. -/
def above (path : String) : List String :=
  (Text.splitText '/' path).dropLast

/-- The strongest of the ranks that the name of a file and the directories above it give. -/
def rankOf (path name extension : String) : Rank :=
  ((above path).map rankOfDirectory).foldr max (rankOfName name extension)

theorem rankOf_le_iff {path name extension : String} {rank : Rank} :
    rankOf path name extension ≤ rank ↔
      rankOfName name extension ≤ rank ∧ ∀ d ∈ above path, rankOfDirectory d ≤ rank := by
  rw [rankOf, foldr_max_le_iff, List.forall_mem_map]

/-! ## Classification -/

/-- One of the directories above a file speaks for a role if its name in lowercase does. -/
theorem any_directorySpeaks (path : String) (rank : Rank) :
    (above path).any (directorySpeaks · rank)
      = (directoriesAbove path).any (directoryNames rank).contains := by
  rw [directoriesAbove, List.any_map]
  rfl

theorem strongest_eq (speaks : Rank → Bool) : strongest speaks =
    if speaks .test then .test
    else if speaks .config then .config
    else (Rank.conferring.find? speaks).getD .file := by
  rw [strongest, Rank.falling, List.find?_cons, List.find?_cons, List.find?_append]
  cases speaks .test with
  | true => rfl
  | false =>
      cases speaks .config with
      | true => rfl
      | false =>
          cases Rank.conferring.find? speaks with
          | some rank => rfl
          | none =>
              -- a file for which nothing speaks is a plain file
              rw [List.find?_singleton]
              cases speaks .file <;> rfl

/-- The roles that directories confer stand in the table from the strongest to the weakest. -/
theorem conferred?_eq (directories : List String) :
    conferred? directories = (Rank.conferring.find? fun rank =>
      directories.any (directoryNames rank).contains).map Rank.kind := by
  have htable : directoryRoles
      = Rank.conferring.map fun rank => (rank.kind, directoryNames rank) := rfl
  rw [conferred?, htable, List.find?_map, Option.map_map]
  rfl

/-- The rules are tried from the strongest role to the weakest. -/
theorem classify_eq_strongest (path name extension : String) :
    classify path name extension = (strongest fun rank =>
      nameSpeaks name extension rank || (above path).any (directorySpeaks · rank)).kind := by
  simp only [any_directorySpeaks]
  have htest : isTest (directoriesAbove path) (stemOf (Text.lower name))
      = (nameSpeaks name extension .test
        || (directoriesAbove path).any (directoryNames .test).contains) := by
    rw [isTest, Bool.or_assoc, Bool.or_comm]
    rfl
  have hconfig : isConfig (Text.lower name) (stemOf (Text.lower name)) (plainExtension extension)
      = (nameSpeaks name extension .config
        || (directoriesAbove path).any (directoryNames .config).contains) := by
    -- no directory speaks for configuration
    have hnone : (directoriesAbove path).any (directoryNames .config).contains = false :=
      List.any_eq_false.mpr fun _ _ => Bool.false_ne_true
    rw [hnone, Bool.or_false]
    rfl
  have hrest : Rank.conferring.find? (fun rank => nameSpeaks name extension rank
        || (directoriesAbove path).any (directoryNames rank).contains)
      = Rank.conferring.find? fun rank =>
        (directoriesAbove path).any (directoryNames rank).contains :=
    List.find?_congr fun rank hrank => by
      have hname : ∀ rank ∈ Rank.conferring, nameSpeaks name extension rank = false := by
        simp [Rank.conferring, nameSpeaks]
      rw [hname rank hrank, Bool.false_or]
  rw [strongest_eq, hrest, classify, conferred?_eq, htest, hconfig, apply_ite Rank.kind,
    apply_ite Rank.kind]
  exact congrArg _ (congrArg _ (Option.getD_map Rank.kind .file _))

/-- **The rules find the strongest rank.** -/
theorem classify_eq_kind (path name extension : String) :
    classify path name extension = (rankOf path name extension).kind := by
  rw [classify_eq_strongest]
  refine congrArg Rank.kind (eq_of_forall_ge_iff fun rank => ?_)
  rw [strongest_le_iff, rankOf_le_iff, rankOfName, strongest_le_iff]
  simp only [rankOfDirectory, strongest_le_iff, Bool.or_eq_true, List.any_eq_true]
  constructor
  · intro h
    exact ⟨fun r hr => h r (Or.inl hr), fun d hd r hr => h r (Or.inr ⟨d, hd, hr⟩)⟩
  · rintro ⟨hname, habove⟩ r (hr | ⟨d, hd, hr⟩)
    · exact hname r hr
    · exact habove d hd r hr

/-! ## Paths -/

/-- A name in front of a path is one more directory above the file. -/
theorem above_append {directory : String} (h : '/' ∉ directory.toList) (path : String) :
    above (directory ++ "/" ++ path) = directory :: above path := by
  rw [above, Text.splitText_append rfl, Text.splitText_of_not_mem h, List.singleton_append,
    List.dropLast_cons_of_ne_nil (Text.splitText_ne_nil '/' path), above]

section

variable {path other name extension : String}

/-- **One more directory** leaves the stronger of its rank and the rank so far. -/
theorem rankOf_append {directory : String} (h : '/' ∉ directory.toList) :
    rankOf (directory ++ "/" ++ path) name extension
      = max (rankOfDirectory directory) (rankOf path name extension) := by
  rw [rankOf, above_append h, List.map_cons, List.foldr_cons, rankOf]

/-- **Neither the order of the directories matters nor how often one of them occurs.** -/
theorem rankOf_congr (h : ∀ d, d ∈ above other ↔ d ∈ above path) :
    rankOf other name extension = rankOf path name extension := by
  refine eq_of_forall_ge_iff fun rank => ?_
  rw [rankOf_le_iff, rankOf_le_iff]
  simp only [h]

end

/-! ## Letter case -/

open Text (SameLetters asciiLower asciiLowercase)

theorem directoriesAbove_eq_of_sameLetters {path other : String} (h : SameLetters other path) :
    directoriesAbove other = directoriesAbove path := by
  have hsep : ∀ c, asciiLower c = '/' ↔ c = '/' := fun c => Text.asciiLower_eq_iff (by decide)
  have hsmall : ∀ s, directoriesAbove (asciiLowercase s) = directoriesAbove s := by
    intro s
    rw [directoriesAbove, Text.splitText_asciiLowercase hsep, ← List.map_dropLast, List.map_map]
    exact List.map_congr_left fun part _ => Text.lower_asciiLowercase part
  rw [← hsmall other, h, hsmall]

theorem plainExtension_eq_of_sameLetters {extension other : String}
    (h : SameLetters other extension) : plainExtension other = plainExtension extension := by
  have hdot : ∀ c, decide (asciiLower c = '.') = decide (c = '.') := fun c =>
    decide_eq_decide.mpr (Text.asciiLower_eq_iff (by decide))
  have hsmall : ∀ s, plainExtension (asciiLowercase s) = plainExtension s := by
    intro s
    rw [plainExtension, plainExtension, asciiLowercase, String.toList_ofList,
      List.dropWhile_map, ← Text.lower_asciiLowercase (String.ofList (List.dropWhile _ s.toList)),
      asciiLowercase, String.toList_ofList]
    simp only [Function.comp_def, hdot]
  rw [← hsmall other, h, hsmall]

/-- **Letter case does not matter**, as far as letters of ASCII go. -/
theorem classify_eq_of_sameLetters {path other name otherName extension otherExtension : String}
    (hpath : SameLetters other path) (hname : SameLetters otherName name)
    (hextension : SameLetters otherExtension extension) :
    classify other otherName otherExtension = classify path name extension := by
  rw [classify, directoriesAbove_eq_of_sameLetters hpath, hname.lower_eq,
    plainExtension_eq_of_sameLetters hextension, classify]

/-! ## All together -/

/-- **The role of a file is the strongest that its name or one of the directories above it gives.**
So the same directories in another order, or some of them more than once, give the same role; one
more directory leaves the stronger of its own role and the role so far; and the case of ASCII
letters makes no difference. -/
theorem classify_strongest (path name extension : String) :
    classify path name extension = (rankOf path name extension).kind ∧
      (∀ other, (∀ d, d ∈ above other ↔ d ∈ above path) →
        classify other name extension = classify path name extension) ∧
      (∀ directory, '/' ∉ directory.toList →
        classify (directory ++ "/" ++ path) name extension
          = (max (rankOfDirectory directory) (rankOf path name extension)).kind) ∧
      ∀ other otherName otherExtension, SameLetters other path → SameLetters otherName name →
        SameLetters otherExtension extension →
        classify other otherName otherExtension = classify path name extension := by
  refine ⟨classify_eq_kind path name extension, fun other hother => ?_,
    fun directory hdirectory => ?_, fun _ _ _ hpath hname hextension =>
      classify_eq_of_sameLetters hpath hname hextension⟩
  · rw [classify_eq_kind, classify_eq_kind, rankOf_congr hother]
  · rw [classify_eq_kind, rankOf_append hdirectory]

/-- A model below an interface stands for an endpoint whichever of the two directories comes first,
and in a directory of tests it is a test. -/
theorem classify_strongest_modelOfInterface :
    (∀ d, d ∈ above "models/API/models/b.py" ↔ d ∈ above "API/models/user.py") ∧
      '/' ∉ "Specs".toList ∧ SameLetters "api/MODELS/User.py" "API/models/user.py" ∧
      SameLetters "User.py" "user.py" ∧ SameLetters "PY" "py" ∧
      classify "API/models/user.py" "user.py" "py" = .endpoint ∧
      classify "models/API/models/b.py" "user.py" "py" = .endpoint ∧
      classify ("Specs" ++ "/" ++ "API/models/user.py") "user.py" "py" = .test ∧
      classify "api/MODELS/User.py" "User.py" "PY" = .endpoint := by
  obtain ⟨hkind, horder, hbelow, hcase⟩ := classify_strongest "API/models/user.py" "user.py" "py"
  have hrank : rankOf "API/models/user.py" "user.py" "py" = .endpoint := by cbv
  have hspecs : rankOfDirectory "Specs" = .test := by cbv
  have hrole : classify "API/models/user.py" "user.py" "py" = .endpoint := by
    rw [hkind, hrank]
    rfl
  have hsame : ∀ d, d ∈ above "models/API/models/b.py" ↔ d ∈ above "API/models/user.py" := by
    have hone : above "models/API/models/b.py" = ["models", "API", "models"] := by cbv
    have htwo : above "API/models/user.py" = ["API", "models"] := by cbv
    intro d
    rw [hone, htwo]
    simp only [List.mem_cons, List.not_mem_nil, or_false]
    tauto
  have hslash : '/' ∉ "Specs".toList := by decide
  have hpath : SameLetters "api/MODELS/User.py" "API/models/user.py" := by decide
  have hname : SameLetters "User.py" "user.py" := by decide
  have hextension : SameLetters "PY" "py" := by decide
  refine ⟨hsame, hslash, hpath, hname, hextension, hrole, ?_, ?_, ?_⟩
  · rw [horder _ hsame, hrole]
  · rw [hbelow _ hslash, hspecs, hrank]
    rfl
  · rw [hcase _ _ _ hpath hname hextension, hrole]

end Cartograph.Role
