import Cartograph.Proofs.Python.Proper
import Cartograph.Python.Reader

/-!
# The rules of the grammar

Whatever text is read, the rules of the grammar give what is proper in it: trees without a fault,
whose definitions have identifiers for names and whose forms stand on lines of the text, cursors
that do not leave the text, and faults that stand in it (`proper_read`). The walk through the
grammar has one lemma for each rule: if the rules it refers to are sound, so is the rule. The tree
of a whole text is proper as well, but for one fault where reading may have stopped
(`Tree.ofText_eq`).
-/

namespace Cartograph.Python

open Checked (Proper)

-- Rules that read one token or none are opened where they are used; of all others the lemmas speak.
attribute [grind] stuck needOp needWord needName

attribute [grind =] Tree.isFault

section

variable {last : Nat} {rules : Rules} {p : Place} {n : Nat} {fresh : Bool} {line : Nat} {t : Tree}
  {parts : List Tree} {c d : Cursor} (h : rules.Proper last)

include h

/-! ## Strings -/

@[grind! =>] theorem inherits_stringBody {style : StringStyle} {plain : Bool} {s : Inside} :
    Inherits last (stringBody rules p style n plain parts s) (parts, s) := by
  rintro ⟨hparts, hs⟩
  fun_induction stringBody <;> grind

@[grind! =>] theorem inherits_oneString :
    Inherits last (oneString rules p n parts c) (parts, c) := by
  rintro ⟨hparts, hc⟩
  grind [oneString]

@[grind! =>] theorem inherits_strings :
    Inherits last (strings rules p line n parts c) (line, parts, c) := by
  rintro ⟨hline, hparts, hc⟩
  fun_induction strings <;> grind

@[grind! =>] theorem inherits_layout {s : Inside} :
    Inherits last (layout rules p n parts s) (parts, s) := by
  rintro ⟨hparts, hs⟩
  fun_induction layout <;> grind

@[grind! =>] theorem inherits_fieldEnd :
    Inherits last (fieldEnd rules p n line parts c) (line, parts, c) := by
  rintro ⟨hline, hparts, hc⟩
  grind [fieldEnd]

/-! ## Dotted names -/

omit h in
@[grind! =>, grind .] theorem proper_needName (hc : Proper last c) :
    Proper last (needName p c) := by
  grind [needName]

omit h in
@[grind! =>, grind .] theorem proper_dottedTail (hd : Proper last d) (hc : Proper last c) :
    Proper last (dottedTail p n d c) := by
  fun_induction dottedTail <;> grind

omit h in
@[grind! =>, grind .] theorem proper_dottedName (hc : Proper last c) :
    Proper last (dottedName p n c) := by
  simp only [dottedName, proper_bind, Prod.forall, proper_pure]
  grind

/-! ## Patterns of a `case` -/

@[grind! =>] theorem inherits_patternsUntil {close : String} :
    Inherits last (patternsUntil rules p close n parts c) (parts, c) := by
  rintro ⟨hparts, hc⟩
  fun_induction patternsUntil <;> grind

@[grind! =>] theorem inherits_mappingEntry :
    Inherits last (mappingEntry rules p parts c) (parts, c) := by
  rintro ⟨hparts, hc⟩
  unfold mappingEntry
  split
  · grind
  · simp only [proper_ite, proper_bind, proper_pure, Prod.forall]
    grind

@[grind! =>] theorem inherits_mappingEntries :
    Inherits last (mappingEntries rules p n parts c) (parts, c) := by
  rintro ⟨hparts, hc⟩
  fun_induction mappingEntries <;> grind

omit h in
@[grind! =>, grind .] theorem proper_numberPattern (hc : Proper last c) :
    Proper last (numberPattern p c) := by
  grind [numberPattern]

@[grind! =>] theorem inherits_simplePattern :
    Inherits last (simplePattern rules p fresh n c) c := by
  intro hc
  unfold simplePattern
  split
  · grind
  · -- one case for each sort of token
    split <;> grind

@[grind! =>] theorem inherits_patternTail :
    Inherits last (patternTail rules p line n parts c) (line, parts, c) := by
  rintro ⟨hline, hparts, hc⟩
  fun_induction patternTail <;> grind

@[grind! =>] theorem inherits_casePattern : Inherits last (casePattern rules p fresh n c) c := by
  intro hc
  grind [casePattern]

/-! ## Lists of expressions -/

@[grind! =>] theorem inherits_expressions {several : Bool} :
    Inherits last (expressions rules p fresh n several parts c) (parts, c) := by
  rintro ⟨hparts, hc⟩
  fun_induction expressions <;> grind

@[grind! =>] theorem inherits_expressionList :
    Inherits last (expressionList rules p fresh n c) c := by
  intro hc
  grind [expressionList]

@[grind! =>] theorem inherits_yielded : Inherits last (yielded rules p n c) c := by
  intro hc
  grind [yielded]

/-! ## Comprehensions -/

@[grind! =>] theorem inherits_targets : Inherits last (targets rules p n parts c) (parts, c) := by
  rintro ⟨hparts, hc⟩
  fun_induction targets <;> grind

@[grind! =>] theorem inherits_sources :
    Inherits last (sources rules p n fresh parts c) (parts, c) := by
  rintro ⟨hparts, hc⟩
  fun_induction sources <;> grind

@[grind! =>] theorem inherits_clauses : Inherits last (clauses rules p n parts c) (parts, c) := by
  rintro ⟨hparts, hc⟩
  fun_induction clauses <;> grind

/-! ## Brackets -/

@[grind! =>] theorem inherits_starred : Inherits last (starred rules p c) c := by
  intro hc
  grind [starred]

@[grind! =>] theorem inherits_item : Inherits last (item rules p n c) c := by
  intro hc
  grind [item]

@[grind! =>] theorem inherits_moreItems {close : String} :
    Inherits last (moreItems rules p close n parts c) (parts, c) := by
  rintro ⟨hparts, hc⟩
  fun_induction moreItems <;> grind

@[grind! =>] theorem inherits_collection {close : String} {alone many : Form} :
    Inherits last (collection rules p n line close alone many t c) (line, alone, many, t, c) := by
  rintro ⟨hline, halone, hmany, ht, hc⟩
  unfold collection
  split
  · split
    · simp only [proper_bind, proper_pure]
      grind
    · grind
  · grind

@[grind! =>] theorem inherits_parentheses : Inherits last (parentheses rules p n c) c := by
  intro hc
  grind [parentheses]

@[grind! =>] theorem inherits_brackets : Inherits last (brackets rules p n c) c := by
  intro hc
  grind [brackets]

@[grind! =>] theorem inherits_entry : Inherits last (entry rules p parts c) (parts, c) := by
  rintro ⟨hparts, hc⟩
  unfold entry
  split
  · grind
  · split
    · simp only [proper_bind, proper_pure, Prod.forall]
      grind
    · grind

@[grind! =>] theorem inherits_moreEntries :
    Inherits last (moreEntries rules p line n parts c) (line, parts, c) := by
  rintro ⟨hline, hparts, hc⟩
  fun_induction moreEntries <;> grind

@[grind! =>] theorem inherits_braces : Inherits last (braces rules p n c) c := by
  intro hc
  unfold braces
  dsimp only
  split
  · grind
  split
  · grind
  split
  · grind
  · -- a set, or a dictionary if a colon comes after its first item
    split
    · grind
    · split
      · split
        · grind
        · split
          · split
            · simp only [proper_bind, proper_pure]
              grind
            · grind
          · grind
      · grind

/-! ## Calls and items -/

@[grind! =>] theorem inherits_argument : Inherits last (argument rules p c) c := by
  intro hc
  grind [argument]

@[grind! =>] theorem inherits_moreArguments :
    Inherits last (moreArguments rules p line n parts c) (line, parts, c) := by
  rintro ⟨hline, hparts, hc⟩
  fun_induction moreArguments <;> grind

@[grind! =>] theorem inherits_arguments {generates : Bool} :
    Inherits last (arguments rules p generates n c) c := by
  intro hc
  unfold arguments
  dsimp only
  split
  · grind
  · split
    · grind
    · split
      · split
        · simp only [proper_bind, proper_pure]
          grind
        · grind
      · grind

@[grind! =>] theorem inherits_sliceBound :
    Inherits last (sliceBound rules p parts c) (parts, c) := by
  rintro ⟨hparts, hc⟩
  grind [sliceBound]

@[grind! =>] theorem inherits_index : Inherits last (index rules p parts c) (parts, c) := by
  rintro ⟨hparts, hc⟩
  simp only [index, proper_ite, proper_bind, proper_pure, Prod.forall]
  grind

@[grind! =>] theorem inherits_indices : Inherits last (indices rules p n parts c) (parts, c) := by
  rintro ⟨hparts, hc⟩
  fun_induction indices <;> grind

@[grind! =>] theorem inherits_trailers : Inherits last (trailers rules p n t c) (t, c) := by
  rintro ⟨ht, hc⟩
  fun_induction trailers <;> grind

/-! ## Operands and operators -/

@[grind! =>] theorem inherits_atom : Inherits last (atom rules p n c) c := by
  intro hc
  grind [atom]

@[grind! =>] theorem inherits_operand : Inherits last (operand rules p fresh n c) c := by
  intro hc
  grind [operand]

omit h in
@[grind →] theorem proper_afterOperator? (hd : afterOperator? c = some d) (hc : Proper last c) :
    Proper last d := by
  grind [afterOperator?]

@[grind! =>] theorem inherits_operands : Inherits last (operands rules p n parts c) (parts, c) := by
  rintro ⟨hparts, hc⟩
  fun_induction operands <;> grind

/-! ## Parameters -/

@[grind! =>] theorem inherits_defaultValue :
    Inherits last (defaultValue rules p parts c) (parts, c) := by
  rintro ⟨hparts, hc⟩
  grind [defaultValue]

@[grind! =>] theorem inherits_parameterType {typed : Bool} :
    Inherits last (parameterType rules p typed parts c) (parts, c) := by
  rintro ⟨hparts, hc⟩
  grind [parameterType]

@[grind! =>] theorem inherits_starredParameter {typed : Bool} :
    Inherits last (starredParameter rules p typed parts c) (parts, c) := by
  rintro ⟨hparts, hc⟩
  grind [starredParameter]

@[grind! =>] theorem inherits_parameter {typed : Bool} :
    Inherits last (parameter rules p typed n parts c) (parts, c) := by
  rintro ⟨hparts, hc⟩
  unfold parameter
  split
  · simp only [proper_ite, proper_bind, Prod.forall]
    grind
  · grind
  · grind

@[grind! =>] theorem inherits_parameters {typed : Bool} {close : String} :
    Inherits last (parameters rules p typed close n parts c) (parts, c) := by
  rintro ⟨hparts, hc⟩
  fun_induction parameters <;> grind

/-! ## Expressions -/

@[grind! =>] theorem inherits_anonymous : Inherits last (anonymous rules p n c) c := by
  intro hc
  simp only [anonymous, pure_bind, proper_ite, proper_bind, proper_pure, Prod.forall]
  grind

@[grind! =>] theorem inherits_part : Inherits last (part rules p fresh n c) c := by
  intro hc
  grind [part]

@[grind! =>] theorem inherits_continuations :
    Inherits last (continuations rules p line n parts c) (line, parts, c) := by
  rintro ⟨hline, hparts, hc⟩
  fun_induction continuations <;> grind

@[grind! =>] theorem inherits_expression : Inherits last (expression rules p fresh n c) c := by
  intro hc
  grind [expression]

@[grind! =>] theorem inherits_typeHint {bounded : Bool} :
    Inherits last (typeHint rules p bounded c) c := by
  intro hc
  unfold typeHint
  -- what comes after the first form goes on from both branches
  extract_lets rest
  have hrest : ∀ first d, Proper last first → Proper last d → Proper last (rest (first, d)) := by
    intro first d hfirst hd
    simp only [rest, proper_ite, proper_bind, proper_pure, Prod.forall]
    grind
  clear_value rest
  split
  · simp only [proper_bind, pure_bind, Prod.forall]
    grind
  · simp only [proper_bind, Prod.forall]
    grind

@[grind! =>] theorem inherits_field : Inherits last (field rules p n c) c := by
  intro hc
  grind [field]

/-! ## Imports -/

omit h in
@[grind! =>, grind .] theorem proper_importedNames {names : List String} (hc : Proper last c) :
    Proper last (importedNames p n names c) := by
  fun_induction importedNames <;> grind [Except.map]

omit h in
@[grind! =>, grind .] theorem proper_importStatement (hc : Proper last c) :
    Proper last (importStatement p n c) := by
  have hnext : Proper last c.next := proper_next hc
  simp only [importStatement, proper_bind, proper_pure, Prod.forall]
  grind

omit h in
@[grind! =>, grind .] theorem proper_importedList (hc : Proper last c) :
    Proper last (importedList p n c) := by
  unfold importedList
  split
  · have hinner : Proper last c.next.afterBracket := proper_next hc
    grind
  · exact proper_map_of (proper_importedNames hc) fun _ hlist => hlist.2

omit h in
@[grind! =>, grind .] theorem proper_passDots (hc : Proper last c) :
    Proper last (passDots p n c) := by
  fun_induction passDots <;> grind

omit h in
@[grind! =>, grind .] theorem proper_fromStatement (hc : Proper last c) :
    Proper last (fromStatement p n c) := by
  have hnext : Proper last c.next := proper_next hc
  have hlate : Proper last c.next.next := proper_next hnext
  have hdots : Proper last (passDots p n c.next) := proper_passDots hnext
  have hlist : ∀ form e, Proper last form → Proper last e → Proper last
      ((importedList p n e).map fun e => (Tree.node form c.line [], e)) := fun form e hform he =>
    proper_map_of (proper_importedList he) fun _ hd =>
      ⟨⟨⟨hform, proper_cursor_line hc⟩, trivial⟩, hd⟩
  have hnamed : Proper last
      ((dottedName p.inner n (passDots p n c.next)).map fun read => (some read.1, read.2)) :=
    proper_map_of (proper_dottedName hdots) fun _ hname => ⟨proper_some.mpr trivial, hname.2⟩
  have hform : ∀ name, Proper last (Form.importFrom name) := fun _ => ⟨⟨nofun, nofun⟩, rfl⟩
  grind [fromStatement]

/-! ## Simple statements -/

@[grind! =>] theorem inherits_setting :
    Inherits last (setting rules p line parts c) (line, parts, c) := by
  rintro ⟨hline, hparts, hc⟩
  simp only [setting, proper_ite, proper_bind, proper_pure, Prod.forall]
  grind

@[grind! =>] theorem inherits_value : Inherits last (value rules p n c) c := by
  intro hc
  grind [value]

@[grind! =>] theorem inherits_listed : Inherits last (listed rules p n parts c) (parts, c) := by
  rintro ⟨hparts, hc⟩
  fun_induction listed <;> grind

omit h in
@[grind! =>, grind .] theorem proper_listedNames (hc : Proper last c) :
    Proper last (listedNames p n c) := by
  fun_induction listedNames <;> grind

@[grind! =>] theorem inherits_keywordList : Inherits last (keywordList rules p n c) c := by
  intro hc
  simp only [keywordList, proper_bind, proper_pure, Prod.forall]
  grind

@[grind! =>] theorem inherits_raiseStatement : Inherits last (raiseStatement rules p n c) c := by
  intro hc
  simp only [raiseStatement, pure_bind, proper_ite, proper_bind, proper_pure, Prod.forall]
  grind

@[grind! =>] theorem inherits_printStatement : Inherits last (printStatement rules p n c) c := by
  intro hc
  simp only [printStatement, proper_bind, proper_pure, Prod.forall]
  grind

@[grind! =>] theorem inherits_execStatement : Inherits last (execStatement rules p n c) c := by
  intro hc
  unfold execStatement
  -- what comes after the code goes on from every branch
  extract_lets d rest
  have hrest : ∀ code e, Proper last code → Proper last e → Proper last (rest (code, e)) := by
    intro code e hcode he
    simp only [rest, proper_ite, proper_bind, proper_pure, Prod.forall]
    grind
  clear_value rest
  split
  · simp only [proper_bind, pure_bind, Prod.forall]
    grind
  · split
    · exact proper_stuck (proper_next hc)
    · grind
  · exact proper_stuck (proper_next hc)

@[grind! =>] theorem inherits_typeStatement : Inherits last (typeStatement rules p c) c := by
  intro hc
  simp only [typeStatement, proper_bind, proper_pure, Prod.forall]
  grind

omit h in
@[grind .] theorem proper_upToEnd {r : Reading} (hr : Proper last r) : Proper last (upToEnd r) := by
  unfold upToEnd
  split
  · split <;> grind
  · exact hr

omit h in
@[grind .] theorem proper_orElse {first : Reading} {second : Unit → Reading}
    (hfirst : Proper last first) (hsecond : Proper last (second ())) :
    Proper last (orElse first second) := by
  unfold orElse
  split
  · exact hfirst
  · split <;> grind

@[grind! =>] theorem inherits_simpleStatement : Inherits last (simpleStatement rules p n c) c := by
  intro hc
  unfold simpleStatement
  split
  · have hnames : Proper last
        ((listedNames p n c.next).map fun d => (Tree.node .other c.line [], d)) :=
      proper_map_of (proper_listedNames (proper_next hc)) fun _ hd =>
        ⟨⟨⟨⟨Form.named_other, rfl⟩, proper_cursor_line hc⟩, trivial⟩, hd⟩
    simp only [proper_ite, proper_bind, proper_pure, Prod.forall]
    grind
  · grind

@[grind! =>] theorem inherits_simpleStatements :
    Inherits last (simpleStatements rules p line n parts c) (line, parts, c) := by
  rintro ⟨hline, hparts, hc⟩
  fun_induction simpleStatements <;> grind

@[grind! =>] theorem inherits_simpleLine {indent : Nat} :
    Inherits last (simpleLine rules indent n c) c := by
  intro hc
  grind [simpleLine]

/-! ## Blocks -/

@[grind! =>] theorem inherits_statements {indent : Nat} :
    Inherits last (statements rules indent n parts c) (parts, c) := by
  rintro ⟨hparts, hc⟩
  fun_induction statements <;> grind

@[grind! =>] theorem inherits_suite {indent : Nat} : Inherits last (suite rules indent n c) c := by
  intro hc
  unfold suite
  split <;> simp only [proper_ite, proper_bind, proper_pure, Prod.forall] <;> grind

@[grind! =>] theorem inherits_body : Inherits last (body rules p c) c := by
  intro hc
  simp only [body, proper_bind]
  grind

@[grind! =>] theorem inherits_elseClause :
    Inherits last (elseClause rules p parts c) (parts, c) := by
  rintro ⟨hparts, hc⟩
  simp only [elseClause, proper_ite, proper_bind, proper_pure, Prod.forall]
  grind

@[grind! =>] theorem inherits_elifClauses :
    Inherits last (elifClauses rules p n parts c) (parts, c) := by
  rintro ⟨hparts, hc⟩
  fun_induction elifClauses <;> grind

@[grind! =>] theorem inherits_ifStatement : Inherits last (ifStatement rules p n c) c := by
  intro hc
  simp only [ifStatement, proper_bind, proper_pure, Prod.forall]
  grind

@[grind! =>] theorem inherits_whileStatement : Inherits last (whileStatement rules p c) c := by
  intro hc
  simp only [whileStatement, proper_bind, proper_pure, Prod.forall]
  grind

@[grind! =>] theorem inherits_forStatement : Inherits last (forStatement rules p n c) c := by
  intro hc
  simp only [forStatement, proper_bind, proper_pure, Prod.forall]
  grind

@[grind! =>] theorem inherits_withStatement : Inherits last (withStatement rules p n c) c := by
  intro hc
  simp only [withStatement, proper_bind, proper_pure, Prod.forall]
  grind

/-! ## Exceptions -/

@[grind! =>] theorem inherits_exceptHeader {starred : Bool} :
    Inherits last (exceptHeader rules p starred parts c) (parts, c) := by
  rintro ⟨hparts, hc⟩
  simp only [exceptHeader, proper_ite, proper_bind, proper_pure, Prod.forall]
  grind

@[grind! =>] theorem inherits_exceptClauses {starred : Bool} :
    Inherits last (exceptClauses rules p starred n parts c) (parts, c) := by
  rintro ⟨hparts, hc⟩
  fun_induction exceptClauses <;> grind

@[grind! =>] theorem inherits_finallyClause :
    Inherits last (finallyClause rules p parts c) (parts, c) := by
  rintro ⟨hparts, hc⟩
  simp only [finallyClause, proper_ite, proper_bind, proper_pure, Prod.forall]
  grind

@[grind! =>] theorem inherits_tryStatement : Inherits last (tryStatement rules p n c) c := by
  intro hc
  simp only [tryStatement, proper_ite, proper_bind, proper_pure, Prod.forall]
  grind

/-! ## Definitions -/

@[grind! =>] theorem inherits_typeParameters :
    Inherits last (typeParameters rules p n parts c) (parts, c) := by
  rintro ⟨hparts, hc⟩
  fun_induction typeParameters <;> grind

@[grind! =>] theorem inherits_typeParameterList :
    Inherits last (typeParameterList rules p n c) c := by
  intro hc
  grind [typeParameterList]

@[grind! =>] theorem inherits_parameterList :
    Inherits last (parameterList rules p n parts c) (parts, c) := by
  rintro ⟨hparts, hc⟩
  grind [parameterList]

/-- The name of a function is read as one word. -/
@[grind! =>] theorem inherits_functionDefinition {isAsync : Bool} :
    Inherits last (functionDefinition rules p isAsync line n c) (line, c) := by
  rintro ⟨hline, hc⟩
  simp only [functionDefinition, pure_bind, proper_ite, proper_bind, proper_pure, Prod.forall]
  refine ⟨by grind, fun name after hname => ?_⟩
  have hword : Text.isIdentifier name = true := isIdentifier_of_needName hname
  have hafter : Proper last after := by grind
  grind

/-- The name of a class is read as one word. -/
@[grind! =>] theorem inherits_classDefinition : Inherits last (classDefinition rules p n c) c := by
  intro hc
  simp only [classDefinition, pure_bind, proper_ite, proper_bind, proper_pure, Prod.forall]
  refine ⟨by grind, fun name after hname => ?_⟩
  have hword : Text.isIdentifier name = true := isIdentifier_of_needName hname
  have hafter : Proper last after := by grind
  grind

@[grind! =>] theorem inherits_definition? : Inherits last (definition? rules p n c) c := by
  intro hc
  grind [definition?]

@[grind! =>] theorem inherits_decoratorLine : Inherits last (decoratorLine rules p c) c := by
  intro hc
  simp only [decoratorLine, proper_bind, Prod.forall]
  grind

@[grind! =>] theorem inherits_decorated :
    Inherits last (decorated rules p line n parts c) (line, parts, c) := by
  rintro ⟨hline, hparts, hc⟩
  fun_induction decorated <;> grind

/-! ## Matching -/

@[grind! =>] theorem inherits_casePatterns :
    Inherits last (casePatterns rules p n parts c) (parts, c) := by
  rintro ⟨hparts, hc⟩
  fun_induction casePatterns <;> grind

@[grind! =>] theorem inherits_caseClause : Inherits last (caseClause rules p n c) c := by
  intro hc
  simp only [caseClause, pure_bind, proper_ite, proper_bind, proper_pure, Prod.forall]
  grind

@[grind! =>] theorem inherits_caseClauses :
    Inherits last (caseClauses rules p n parts c) (parts, c) := by
  rintro ⟨hparts, hc⟩
  fun_induction caseClauses <;> grind

@[grind! =>] theorem inherits_matchHeader : Inherits last (matchHeader rules p n c) c := by
  intro hc
  simp only [matchHeader, proper_bind, Prod.forall]
  grind

@[grind! =>] theorem inherits_matchStatement : Inherits last (matchStatement rules p n c) c := by
  intro hc
  unfold matchStatement
  split
  · split
    · simp only [proper_ite, proper_bind, proper_pure, Prod.forall]
      grind
    · grind
  · grind

/-! ## Statements -/

@[grind! =>] theorem inherits_asyncStatement? : Inherits last (asyncStatement? rules p n c) c := by
  intro hc
  grind [asyncStatement?]

@[grind! =>] theorem inherits_statement {indent : Nat} :
    Inherits last (statement rules indent n c) c := by
  intro hc
  unfold statement
  dsimp only
  split
  · grind
  · simp only [proper_ite]
    grind
  · grind

end

/-! ## Files -/

/-- **All rules are sound**, however often they may refer to one another. -/
theorem proper_read (last fuel : Nat) : Rules.Proper last (read fuel) := by
  induction fuel with
  | zero =>
      intro goal c hc
      exact proper_stuck hc
  | succ fuel ih =>
      intro goal c
      cases goal <;> grind [read]

/-- The statements of a file are proper, but for a fault where reading stops. -/
theorem proper_fileStatements {last : Nat} {rules : Rules} (h : rules.Proper last) (n : Nat)
    {acc : List Tree} {c : Cursor} (hacc : Proper last acc) (hc : Proper last c) :
    Proper last (fileStatements rules n acc c) ∨
      ∃ fault ts, fileStatements rules n acc c = Fault.tree fault :: ts ∧ Proper last fault ∧
        Proper last ts := by
  fun_induction fileStatements with
  | case1 acc c => exact .inr ⟨c.fault, acc, rfl, proper_fault hc, hacc⟩
  | case2 n acc c => exact .inl hacc
  | case3 n acc c hending t d hread ih =>
      have hstatement : Proper last (rules (.statement 0) c) := h _ _ hc
      rw [hread] at hstatement
      exact ih ⟨hstatement.1, hacc⟩ hstatement.2
  | case4 n acc c hending fault hread =>
      have hstatement : Proper last (rules (.statement 0) c) := h _ _ hc
      rw [hread] at hstatement
      exact .inr ⟨fault, acc, rfl, hstatement, hacc⟩

/-- **The tree of a text is proper**, but for a fault behind its statements if reading stopped
there. -/
theorem Tree.ofText_eq (cs : List Char) : ∃ statements : List Tree,
    Proper (lineCount cs) statements ∧
      (ofText cs = .node .module 1 statements ∨
        ∃ fault : Fault, Proper (lineCount cs) fault ∧
          ofText cs = .node .module 1 (statements ++ [fault.tree])) := by
  have hread := proper_read (lineCount cs) (fuelFor cs.length)
  rcases proper_fileStatements hread (fuelFor cs.length) proper_nil (proper_begin cs) with
    hts | ⟨fault, ts, heq, hfault, hts⟩
  · exact ⟨_, proper_reverse.mpr hts, .inl rfl⟩
  · refine ⟨ts.reverse, proper_reverse.mpr hts, .inr ⟨fault, hfault, ?_⟩⟩
    simp only [ofText, heq, List.reverse_cons]

/-- A fault has no name, and stands on the line where reading stopped. -/
theorem every_tree {wanted : Form → Nat → Prop} {fault : Fault}
    (h : ∀ form, (form = .fault ∨ form = .missing) → wanted form fault.line) :
    fault.tree.Every wanted := by
  unfold Fault.tree
  split
  · exact ⟨h _ (.inr rfl), trivial⟩
  · exact ⟨h _ (.inl rfl), trivial⟩

/-- **Every form in the tree of a text stands on a line of the text**, and every definition has an
identifier for a name. -/
theorem Tree.every_ofText (cs : List Char) :
    (ofText cs).Every fun form line => form.Named ∧ Proper (lineCount cs) line := by
  have hmodule : Form.module.Named := by simp [Form.Named]
  have hfirst : Proper (lineCount cs) 1 := ⟨Nat.le_refl 1, Nat.le_add_right 1 _⟩
  obtain ⟨statements, hproper, hof | ⟨fault, hfault, hof⟩⟩ := ofText_eq cs
  all_goals
    have hstatements : EveryIn (fun form line => form.Named ∧ Proper (lineCount cs) line)
        statements := EveryIn.imp (fun _ _ h => ⟨h.1.1, h.2⟩) hproper
  · rw [hof]
    exact ⟨⟨hmodule, hfirst⟩, hstatements⟩
  · rw [hof]
    refine ⟨⟨hmodule, hfirst⟩, everyIn_append.mpr ⟨hstatements, every_tree ?_, trivial⟩⟩
    rintro form (rfl | rfl) <;> exact ⟨by simp [Form.Named], hfault⟩

/-- **Every class and every function in a file has an identifier for a name**, whatever the text of
the file is. -/
theorem Tree.named_ofText (cs : List Char) : (Tree.ofText cs).Named :=
  Every.named ((every_ofText cs).imp fun _ _ h => h.1)

end Cartograph.Python
