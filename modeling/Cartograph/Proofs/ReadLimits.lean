import Cartograph.Generic.Entities
import Cartograph.Proofs.Patterns
import Cartograph.Proofs.Text.Lossy
import Cartograph.Proofs.Text.Names
import Cartograph.SourceText
import Mathlib

/-!
# Reading more of a file

A file of no particular language is read up to a limit, and the limit may stand anywhere: between
two bytes of a character, or in the middle of an import. Main statement: whatever a file imports as
far as it is read under one limit, it imports under every higher limit
(`Generic.importTargets_subset_of_le`).

The patterns of imports read framed texts, so more text neither changes what was found nor opens an
earlier find in front of it.
-/

namespace Cartograph.Generic

open Pattern Text

/-! ## What the patterns of imports read -/

/-- The character ends the name of a header. -/
def endsHeader (c : Char) : Bool :=
  c = '>' || c = '"'

theorem reads_includeShape : Reads includeShape (framed '#' endsHeader) := by
  have hname := (reads_one endsHeader).run_append
    (takesRun_capture (takesRun_run 1 fun c => c != '>' && c != '"'))
  have hopened := (reads_one fun c => c = '<' || c = '"').append hname
  -- the parts are put together from the right, while the shape is written from the left
  have hshape := (reads_text (s := "#include") (by decide)).append
    (hopened.run_append (takesRun_run 0 isBlank))
  refine hshape.assoc.assoc.assoc.mono ?_
  rintro _ ⟨_, rfl, _, ⟨gap, hgap, _, ⟨_, ⟨opening, hopening, rfl⟩, _, hname, rfl⟩, rfl⟩, rfl⟩
  obtain ⟨name, hname, _, ⟨last, hlast, rfl⟩, rfl⟩ := hname
  refine ⟨"include".toList ++ gap ++ [opening], name, last, by simp, ?_, ?_, hlast⟩
  · have hfirst : '#' ∉ gap := not_mem_of_mem_allOf hgap (by decide)
    have hquote : '#' ≠ opening := by
      rintro rfl
      exact absurd hopening (by decide)
    simp [hfirst, hquote]
  · intro c hc
    have hinner := hname c hc
    simp only [Bool.and_eq_true, bne_iff_ne] at hinner
    simp [endsHeader, hinner]

/-- A word, a name and a semicolon, as which namespaces and other names are used. -/
def statementShape (word : String) (allowed : Char → Bool) : Pattern :=
  text word ++ gap ++ capture (run 1 allowed) ++ blanks ++ text ";"

theorem reads_statementShape {word : String} {allowed : Char → Bool} {first : Char}
    {lead : List Char} (hword : word.toList = first :: lead) (hlead : first ∉ lead)
    (hfirst : isBlank first = false) (hallowed : allowed ';' = false) :
    Reads (statementShape word allowed) (framed first (· = ';')) := by
  have hend := (reads_text (s := ";") (by decide)).run_append (takesRun_run 0 isBlank)
  have hname := hend.run_append (takesRun_capture (takesRun_run 1 allowed))
  have hshape := (reads_text (s := word) (by simp [hword])).append
    (hname.run_append (takesRun_run 1 isBlank))
  refine hshape.assoc.assoc.assoc.mono ?_
  rw [hword]
  rintro _ ⟨_, rfl, _, ⟨gap, hgap, _, ⟨name, hname, _, ⟨tail, htail, _, rfl, rfl⟩, rfl⟩, rfl⟩, rfl⟩
  refine ⟨lead ++ gap, name ++ tail, ';', by simp, ?_, ?_, by decide⟩
  · have hgap' : first ∉ gap := not_mem_of_mem_allOf hgap hfirst
    simp [hlead, hgap']
  · have hname' : ';' ∉ name := not_mem_of_mem_allOf hname hallowed
    have htail' : ';' ∉ tail := not_mem_of_mem_allOf htail (by decide)
    intro c hc
    refine decide_eq_false fun hsemicolon => ?_
    rw [hsemicolon, List.mem_append] at hc
    exact hc.elim hname' htail'

/-- The character stands in the name of what is imported. -/
def isTarget (c : Char) : Bool :=
  isWord c || c = '/' || c = '.' || c = '-'

/-- The character ends the name of what is imported. -/
def endsTarget (c : Char) : Bool :=
  c = '"' || c = ')' || isBlank c

/-- The character may stand in front of the name of what is imported. -/
def isQuoteOrBlank (c : Char) : Bool :=
  c = '"' || isBlank c

theorem endsTarget_of_isTarget {c : Char} (h : isTarget c = true) : endsTarget c = false := by
  refine Bool.eq_false_iff.mpr fun hends => ?_
  simp only [endsTarget, Bool.or_eq_true, decide_eq_true_eq] at hends
  rcases hends with (rfl | rfl) | hblank
  · exact absurd h (by decide)
  · exact absurd h (by decide)
  · -- White space is no word character, so it could only be one of the three others.
    simp only [isTarget, isWord_of_isBlank hblank, Bool.false_or, Bool.or_eq_true,
      decide_eq_true_eq] at h
    rcases h with (rfl | rfl) | rfl <;> exact absurd hblank (by decide)

/-- What stands behind the parenthesis of an import, or in its place. -/
def importEnd : Set (List Char) :=
  joined (allOf isQuoteOrBlank) (joined (allOf isTarget) (single endsTarget))

theorem not_mem_of_mem_importEnd {s : List Char} (h : s ∈ importEnd) : '(' ∉ s := by
  obtain ⟨quotes, hquotes, _, ⟨name, hname, _, ⟨last, hlast, rfl⟩, rfl⟩, rfl⟩ := h
  simp only [List.mem_append, List.mem_singleton, not_or]
  refine ⟨not_mem_of_mem_allOf hquotes (by decide), not_mem_of_mem_allOf hname (by decide), ?_⟩
  rintro rfl
  exact absurd hlast (by decide)

/-- What does not begin with a parenthesis is not taken for one. -/
theorem take_parenthesis_eq_none {s : List Char} (h : '(' ∉ s) (hne : s ≠ []) (rest : List Char) :
    take (text "(" ++ blanks) (s ++ rest) = none := by
  obtain ⟨c, s, rfl⟩ := List.exists_cons_of_ne_nil hne
  have hc : '(' ≠ c := fun hc => h (hc ▸ List.mem_cons_self)
  have hstrip : stripLead? ['('] (c :: (s ++ rest)) = none := if_neg hc
  have hnone : take (text "(") (c :: s ++ rest) = none :=
    congrArg (Option.map fun rest => (⟨1, [], rest⟩ : Found)) hstrip
  rw [take_append, hnone, Option.bind_none]

theorem reads_importShape : Reads importShape (framed 'i' endsTarget) := by
  have hname := (reads_one endsTarget).run_append (takesRun_capture (takesRun_run 1 isTarget))
  have hend : Reads _ importEnd := hname.run_append (takesRun_run 0 isQuoteOrBlank)
  have hblank : ∀ c, isBlank c = true → isQuoteOrBlank c = true := by
    intro c hc
    simp [isQuoteOrBlank, hc]
  -- the blanks behind a parenthesis are a run in front of quotes and blanks
  have hopen := ((reads_text (s := "(") (by decide)).append (hend.run_run hblank)).assoc
  have hmaybe := hopen.optional_append hend fun s hs hne =>
    take_parenthesis_eq_none (not_mem_of_mem_importEnd hs) hne
  have hshape := (reads_text (s := "import") (by decide)).append
    (hmaybe.run_append (takesRun_run 1 isBlank))
  refine hshape.assoc.assoc.assoc.assoc.mono ?_
  rintro _ ⟨_, rfl, _, ⟨gap, hgap, rest, hrest, rfl⟩, rfl⟩
  obtain ⟨opening, hopening, s, hs, rfl⟩ :
      ∃ opening, 'i' ∉ opening ∧ ∃ s ∈ importEnd, opening ++ s = rest := by
    rcases hrest with ⟨_, rfl, s, hs, rfl⟩ | hs
    · exact ⟨['('], by decide, s, hs, rfl⟩
    · exact ⟨[], List.not_mem_nil, rest, hs, rfl⟩
  obtain ⟨quotes, hquotes, _, ⟨name, hname, _, ⟨last, hlast, rfl⟩, rfl⟩, rfl⟩ := hs
  refine ⟨"mport".toList ++ gap ++ opening ++ quotes, name, last, by simp, ?_, ?_, hlast⟩
  · have hfirst : 'i' ∉ gap := not_mem_of_mem_allOf hgap (by decide)
    have hquote : 'i' ∉ quotes := not_mem_of_mem_allOf hquotes (by decide)
    simp [hfirst, hquote, hopening]
  · exact fun c hc => endsTarget_of_isTarget (hname c hc)

/-- **Every way to import** reads framed texts, and what stands for malformed bytes closes none. -/
theorem exists_reads_framed {shape : ImportShape} (h : shape ∈ shapes) :
    ∃ first closing, Reads shape.pattern (framed first closing) ∧
      closing Utf8.replacement = false := by
  simp only [shapes, List.mem_cons, List.not_mem_nil, or_false] at h
  rcases h with rfl | rfl | rfl | rfl
  · exact ⟨_, _, reads_includeShape, by decide⟩
  · exact ⟨'u', _, reads_statementShape rfl (by decide) (by decide) (by decide), by decide⟩
  · exact ⟨'u', _, reads_statementShape rfl (by decide) (by decide) (by decide), by decide⟩
  · exact ⟨_, _, reads_importShape, by decide +kernel⟩

/-! ## Limits -/

/-- What a text imports it imports when it is continued, and malformed bytes at its end make no
import. -/
theorem importTargets_append_subset (front back : List Char) {broken : List Char}
    (hbroken : ∀ c ∈ broken, c = Utf8.replacement) :
    importTargets (front ++ broken) ⊆ importTargets (front ++ back) := by
  intro target htarget
  rw [importTargets, mem_sorted, List.mem_flatMap] at htarget ⊢
  obtain ⟨shape, hshape, htarget⟩ := htarget
  refine ⟨shape, hshape, ?_⟩
  obtain ⟨first, closing, hreads, hclosing⟩ := exists_reads_framed hshape
  have hopen : ∀ c ∈ broken, closing c = false := fun c hc => hbroken c hc ▸ hclosing
  -- the finds of one shape come first among those in the longer text
  have hfinds := hreads.occurrences_prefix hopen front back
  exact ((hfinds.filterMap _).map _).subset htarget

theorem importTargets_subset_of_prefix {kept whole : List UInt8} (h : kept <+: whole) :
    importTargets (Utf8.decodeLossy kept) ⊆ importTargets (Utf8.decodeLossy whole) := by
  obtain ⟨cut, rfl⟩ := h
  obtain ⟨front, back, broken, hall, hkept, hbroken⟩ := Utf8.exists_decodeLossy_append kept cut
  rw [hall, hkept]
  exact importTargets_append_subset front back hbroken

/-- **Raising the read limit** loses no import, and neither does reading the whole file. -/
theorem importTargets_subset_of_le (bytes : List UInt8) {fewer more : UInt64} (h : fewer ≤ more) :
    importTargets (sourceText bytes (some fewer)) ⊆ importTargets (sourceText bytes (some more)) ∧
      importTargets (sourceText bytes (some more)) ⊆ importTargets (sourceText bytes none) := by
  have hle : fewer.toNat ≤ more.toNat := UInt64.le_iff_toNat_le.mp h
  constructor
  · exact importTargets_subset_of_prefix (List.take_prefix_take_left hle)
  · exact importTargets_subset_of_prefix (List.take_prefix more.toNat bytes)

/-- A used name, and an included header whose name begins with a character of two bytes. -/
def useAndInclude : List UInt8 :=
  Utf8.encode "use a::b;\n#include <é.h>"

/-- The lower limit stands in the middle of that character, so the header is not seen under it. -/
theorem importTargets_useAndInclude : (21 : UInt64) ≤ 25 ∧
    sourceText useAndInclude (some 21) = "use a::b;\n#include <\ufffd".toList ∧
    importTargets (sourceText useAndInclude (some 21)) = ["a/b"] ∧
    importTargets (sourceText useAndInclude (some 25)) = ["a/b", "é.h"] ∧
    importTargets (sourceText useAndInclude (some 21))
      ⊆ importTargets (sourceText useAndInclude (some 25)) := by
  have hle : (21 : UInt64) ≤ 25 := by decide
  exact ⟨hle, by cbv, by cbv, by cbv, (importTargets_subset_of_le useAndInclude hle).1⟩

end Cartograph.Generic
