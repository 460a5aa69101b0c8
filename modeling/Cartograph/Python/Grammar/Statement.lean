import Cartograph.Python.Grammar.CasePattern
import Cartograph.Python.Grammar.Expression

/-!
# Statements

Simple statements, which share a line, and compound statements, whose headers have a block under
them. A block is what follows a header on deeper lines; a header without deeper lines after it has
an empty block. Words such as `print`, `match` and `type` begin a statement of their own only where
the rest of the statement fits, and are names otherwise.
-/

namespace Cartograph.Python

/-! ## Imports -/

/-- Names to import, each of which may get another name; last first. -/
def importedNames (p : Place) : Nat → List String → Cursor → Except Fault (List String × Cursor)
  | 0, _, c => stuck c
  | n + 1, acc, c =>
    match dottedName p n c with
    | .error f => .error f
    | .ok (name, d) =>
      let renamed :=
        if d.isWord "as" && !d.cutOff p then (needName p d.next).map (·.2) else .ok d
      match renamed with
      | .error f => .error f
      | .ok d =>
        if d.isOp "," && !d.cutOff p then
          let e := if p.bracketed then d.next.afterBracket else d.next
          if e.cutOff p || e.isOp ";" || e.isOp ")" then .ok (name :: acc, e)
          else importedNames p n (name :: acc) e
        else .ok (name :: acc, d)

/-- A statement such as `import a, b as c`. -/
def importStatement (p : Place) (n : Nat) (c : Cursor) : Reading := do
  let (names, d) ← importedNames p n [] c.next
  return (.node (.importModules names.reverse) c.line [], d)

/-- What a `from` statement takes: names, in parentheses or not. -/
def importedList (p : Place) (n : Nat) (c : Cursor) : Except Fault Cursor :=
  if c.isOp "(" then
    let q := p.inBrackets
    match importedNames q n [] c.next.afterBracket with
    | .ok (_, d) => needOp q ")" d
    | .error f => .error f
  else (importedNames p n [] c).map (·.2)

/-- The dots in front of a relative name. -/
def passDots (p : Place) : Nat → Cursor → Cursor
  | 0, c => c
  | n + 1, c =>
    if (c.isOp "." || c.isOp "...") && !c.slips p.indent then passDots p n c.next else c

/-- A statement such as `from a.b import c`, `from . import c` or `from __future__ import c`. -/
def fromStatement (p : Place) (n : Nat) (c : Cursor) : Reading :=
  let q := p.inner
  let d := c.next
  if d.isWord "__future__" && !d.slips p.indent then
    match needWord q "import" d.next with
    | .error f => .error f
    | .ok e => (importedList p n e).map fun e => (.node .importFuture c.line [], e)
  else
    let e := passDots p n d
    let named : Except Fault (Option String × Cursor) :=
      if e.start ≠ d.start && e.isWord "import" then .ok (none, e)
      else (dottedName q n e).map fun (name, e) => (some name, e)
    match named with
    | .error f => .error f
    | .ok (name, e) =>
      match needWord q "import" e with
      | .error f => .error f
      | .ok e =>
        if e.isOp "*" && !e.slips p.indent then .ok (.node (.importFrom name) c.line [], e.next)
        else (importedList p n e).map fun e => (.node (.importFrom name) c.line [], e)

/-! ## Settings and expressions -/

/-- The operators that set a target and use its old value. -/
def updates : List String :=
  ["+=", "-=", "*=", "/=", "@=", "//=", "%=", "**=", ">>=", "<<=", "&=", "^=", "|="]

/-- The token is an operator that sets a target and uses its old value. -/
def Cursor.isUpdate (c : Cursor) : Bool :=
  match c.token with
  | .op text => updates.contains text
  | _ => false

/-- What the targets before `c` are set to, if they are set; the parts come last first. -/
def setting (rules : Rules) (p : Place) (line : Nat) (parts : List Tree) (c : Cursor) : Reading :=
  if c.cutOff p || !areTargets parts then .ok (wrap line parts, c)
  else if c.isOp "=" || c.isUpdate then do
    let (value, d) ← rules (.value p) c.next
    return (.node .other line (value :: parts).reverse, d)
  else if c.isOp ":" then do
    let (type, d) ← rules (.typeHint p true) c.next
    if d.isOp "=" && !d.cutOff p then
      let (value, e) ← rules (.value p) d.next
      return (.node .other line (value :: type :: parts).reverse, e)
    else return (.node .other line (type :: parts).reverse, d)
  else .ok (wrap line parts, c)

/-- What a name is set to, and what a statement without a keyword is: expressions, which may in turn
be set, or a `yield`. -/
def value (rules : Rules) (p : Place) (n : Nat) (c : Cursor) : Reading :=
  if c.isWord "yield" then yielded rules p n c
  else match expressions rules p false n false [] c with
    | .ok (parts, _, after) => setting rules p c.line parts after
    | .error f => .error f

/-! ## Simple statements with a keyword -/

/-- Expressions with commas between them, one after each comma; last first. -/
def listed (rules : Rules) (p : Place) : Nat → List Tree → Cursor → Forms
  | 0, _, c => stuck c
  | n + 1, acc, c =>
    match rules (.expression p false) c with
    | .error f => .error f
    | .ok (t, d) =>
      if d.isOp "," && !d.cutOff p then listed rules p n (t :: acc) d.next else .ok (t :: acc, d)

/-- Names with commas between them. -/
def listedNames (p : Place) : Nat → Cursor → Except Fault Cursor
  | 0, c => stuck c
  | n + 1, c =>
    match needName p c with
    | .error f => .error f
    | .ok (_, d) => if d.isOp "," && !d.cutOff p then listedNames p n d.next else .ok d

/-- A `return`, `del` or the like: a keyword and a list of expressions. -/
def keywordList (rules : Rules) (p : Place) (n : Nat) (c : Cursor) : Reading := do
  let (t, d) ← expressionList rules p false n c.next
  return (.node .other c.line [t], d)

/-- A `raise`, with or without what is raised and what it comes from. -/
def raiseStatement (rules : Rules) (p : Place) (n : Nat) (c : Cursor) : Reading := do
  let d := c.next
  if d.endsSimple then return (.node .other c.line [], d)
  let (parts, d) ←
    if d.isWord "from" then pure ([], d)
    else do
      let (t, d) ← expressionList rules p false n d
      pure ([t], d)
  if d.isWord "from" && !d.cutOff p then
    let (t, d) ← rules (.expression p false) d.next
    return (.node .other c.line (parts ++ [t]), d)
  else return (.node .other c.line parts, d)

/-- A `print` as a statement. -/
def printStatement (rules : Rules) (p : Place) (n : Nat) (c : Cursor) : Reading := do
  let d := if c.next.isOp ">>" then c.next.next else c.next
  let (t, d) ← expressionList rules p false n d
  return (.node .other c.line [t], d)

/-- An `exec` as a statement. -/
def execStatement (rules : Rules) (p : Place) (n : Nat) (c : Cursor) : Reading := do
  let d := c.next
  let (code, d) ←
    match d.token with
    | .stringStart _ => do
      let (fields, e) ← oneString rules p n [] d
      pure (Tree.node .other d.line fields.reverse, e)
    | .word _ => if d.slips p.indent then stuck d else pure (Tree.node .other d.line [], d.next)
    | _ => stuck d
  if d.isWord "in" && !d.cutOff p then
    let (parts, d) ← listed rules p n [code] d.next
    return (.node .other c.line parts.reverse, d)
  else return (.node .other c.line [code], d)

/-- A `type` as a statement. -/
def typeStatement (rules : Rules) (p : Place) (c : Cursor) : Reading := do
  let (name, d) ← rules (.typeHint p.inner true) c.next
  let d ← needOp p.inner "=" d
  let (held, d) ← rules (.typeHint p true) d
  return (.node .other c.line [name, held], d)

/-- The reading, if the statement ends after it. -/
def upToEnd (reading : Reading) : Reading :=
  match reading with
  | .ok (t, c) => if c.endsSimple then .ok (t, c) else stuck c
  | .error f => .error f

/-- One simple statement. -/
def simpleStatement (rules : Rules) (p : Place) (n : Nat) (c : Cursor) : Reading :=
  match c.token with
  | .word w =>
    if w = "import" then importStatement p n c
    else if w = "from" then fromStatement p n c
    else if w = "pass" || w = "break" || w = "continue" then .ok (.node .other c.line [], c.next)
    else if w = "return" then
      if c.next.endsSimple then .ok (.node .other c.line [], c.next) else keywordList rules p n c
    else if w = "del" then keywordList rules p n c
    else if w = "assert" then do
      let (parts, d) ← listed rules p n [] c.next
      return (.node .other c.line parts.reverse, d)
    else if w = "global" || w = "nonlocal" then
      (listedNames p n c.next).map fun d => (.node .other c.line [], d)
    else if w = "raise" then raiseStatement rules p n c
    else if w = "print" then
      orElse (upToEnd (value rules p n c)) fun _ => printStatement rules p n c
    else if w = "exec" then
      orElse (upToEnd (value rules p n c)) fun _ => execStatement rules p n c
    else if w = "type" then
      orElse (upToEnd (typeStatement rules p c)) fun _ => value rules p n c
    else value rules p n c
  | _ => value rules p n c

/-- Simple statements on one line; the parts come last first. -/
def simpleStatements (rules : Rules) (p : Place) (line : Nat) : Nat → List Tree → Cursor → Reading
  | 0, _, c => stuck c
  | n + 1, acc, c =>
    match simpleStatement rules p n c with
    | .error f => .error f
    | .ok (t, d) =>
      if d.indent.isSome then .ok (wrap line (t :: acc), d)
      else if d.isOp ";" then
        if d.next.indent.isSome then .ok (wrap line (t :: acc), d.next)
        else simpleStatements rules p line n (t :: acc) d.next
      else stuck d

/-- The simple statements on the line at `c`, in a block with the given indentation. -/
def simpleLine (rules : Rules) (indent : Nat) (n : Nat) (c : Cursor) : Reading :=
  simpleStatements rules { indent, ends := true } c.line n [] c

/-! ## Blocks -/

/-- Statements up to a line that is indented less; last first. -/
def statements (rules : Rules) (indent : Nat) : Nat → List Tree → Cursor → Forms
  | 0, _, c => stuck c
  | n + 1, acc, c =>
    if c.token = .ending || c.slips indent then .ok (acc, c)
    else match rules (.statement indent) c with
      | .ok (t, d) => statements rules indent n (t :: acc) d
      | .error f => .error f

/-- What stands after the colon of a header. -/
def suite (rules : Rules) (indent : Nat) (n : Nat) (c : Cursor) : Reading :=
  match c.indent with
  | none => do
    let (t, d) ← simpleLine rules indent n c
    return (.node .block c.line [t], d)
  | some width =>
    if indent < width && c.token ≠ .ending then do
      let (parts, d) ← statements rules width n [] c
      return (.node .block c.line parts.reverse, d)
    else return (.node .block c.line [], c)

/-- The colon of a header and its block. -/
def body (rules : Rules) (p : Place) (c : Cursor) : Reading := do
  let d ← needOp p ":" c
  rules (.suite p.indent) d

/-- A clause of the statement before it begins with this word here. -/
def Cursor.opensClause (c : Cursor) (p : Place) (word : String) : Bool :=
  c.isWord word && !c.slips p.indent

/-- An `else` clause, if there is one. -/
def elseClause (rules : Rules) (p : Place) (parts : List Tree) (c : Cursor) : Forms :=
  if c.opensClause p "else" then do
    let (t, d) ← body rules p c.next
    return (t :: parts, d)
  else .ok (parts, c)

/-- The `elif` clauses and an `else` clause; last first. -/
def elifClauses (rules : Rules) (p : Place) : Nat → List Tree → Cursor → Forms
  | 0, _, c => stuck c
  | n + 1, parts, c =>
    if c.opensClause p "elif" then
      match rules (.expression p false) c.next with
      | .error f => .error f
      | .ok (condition, d) =>
        match body rules p d with
        | .ok (t, e) => elifClauses rules p n (t :: condition :: parts) e
        | .error f => .error f
    else elseClause rules p parts c

/-- An `if` statement. -/
def ifStatement (rules : Rules) (p : Place) (n : Nat) (c : Cursor) : Reading := do
  let (condition, d) ← rules (.expression p false) c.next
  let (t, d) ← body rules p d
  let (parts, d) ← elifClauses rules p n [t, condition] d
  return (.node .other c.line parts.reverse, d)

/-- A `while` statement. -/
def whileStatement (rules : Rules) (p : Place) (c : Cursor) : Reading := do
  let (condition, d) ← rules (.expression p false) c.next
  let (t, d) ← body rules p d
  let (parts, d) ← elseClause rules p [t, condition] d
  return (.node .other c.line parts.reverse, d)

/-- A `for` statement, from its `for` on. -/
def forStatement (rules : Rules) (p : Place) (n : Nat) (c : Cursor) : Reading := do
  let (parts, d) ← targets rules p n [] c.next
  let d ← needWord p "in" d
  let (source, d) ← expressionList rules p false n d
  let (t, d) ← body rules p d
  let (parts, d) ← elseClause rules p (t :: source :: parts) d
  return (.node .other c.line parts.reverse, d)

/-- A `with` statement, from its `with` on. -/
def withStatement (rules : Rules) (p : Place) (n : Nat) (c : Cursor) : Reading := do
  let (entered, d) ← expressionList rules p false n c.next
  let (t, d) ← body rules p d
  return (.node .other c.line [entered, t], d)

/-! ## Exceptions -/

/-- The `except` is followed closely by a star. -/
def Cursor.isStarred (c : Cursor) : Bool :=
  c.next.isOp "*" && c.next.start = c.stop

/-- What an `except` clause is for, after its keyword. -/
def exceptHeader (rules : Rules) (p : Place) (starred : Bool) (parts : List Tree) (c : Cursor) :
    Forms :=
  if !starred && c.isOp ":" then .ok (parts, c)
  else do
    let (t, d) ← rules (.expression p false) c
    if !starred && d.isOp "," && !d.cutOff p then
      let (held, d) ← rules (.expression p false) d.next
      return (held :: t :: parts, d)
    else return (t :: parts, d)

/-- The `except` clauses, all starred or none; last first. -/
def exceptClauses (rules : Rules) (p : Place) (starred : Bool) : Nat → List Tree → Cursor → Forms
  | 0, _, c => stuck c
  | n + 1, parts, c =>
    if c.opensClause p "except" && (!starred || c.isStarred) then
      let d := if starred then c.next.next else c.next
      match exceptHeader rules p starred parts d with
      | .error f => .error f
      | .ok (parts, d) =>
        match body rules p d with
        | .ok (t, d) => exceptClauses rules p starred n (t :: parts) d
        | .error f => .error f
    else .ok (parts, c)

/-- A `finally` clause, if there is one. -/
def finallyClause (rules : Rules) (p : Place) (parts : List Tree) (c : Cursor) : Forms :=
  if c.opensClause p "finally" then do
    let (t, d) ← body rules p c.next
    return (t :: parts, d)
  else .ok (parts, c)

/-- A `try` statement. -/
def tryStatement (rules : Rules) (p : Place) (n : Nat) (c : Cursor) : Reading := do
  let (t, d) ← body rules p c.next
  if d.opensClause p "except" then
    let (parts, d) ← exceptClauses rules p d.isStarred n [t] d
    let (parts, d) ← elseClause rules p parts d
    let (parts, d) ← finallyClause rules p parts d
    return (.node .other c.line parts.reverse, d)
  else if d.opensClause p "finally" then
    let (parts, d) ← finallyClause rules p [t] d
    return (.node .other c.line parts.reverse, d)
  else stuck d

/-! ## Definitions -/

/-- Type parameters up to the closing bracket; last first. -/
def typeParameters (rules : Rules) (p : Place) : Nat → List Tree → Cursor → Forms
  | 0, _, c => stuck c
  | n + 1, parts, c =>
    match rules (.typeHint p true) c with
    | .error f => .error f
    | .ok (t, d) =>
      if d.isOp "]" then .ok (t :: parts, d.next)
      else if d.isOp "," then
        let e := d.next.afterBracket
        if e.isOp "]" then .ok (t :: parts, e.next) else typeParameters rules p n (t :: parts) e
      else stuck d

/-- Type parameters in brackets, if there are any; last first. -/
def typeParameterList (rules : Rules) (p : Place) (n : Nat) (c : Cursor) : Forms :=
  if c.isOp "[" && !c.slips p.indent then
    typeParameters rules p.inBrackets n [] c.next.afterBracket
  else .ok ([], c)

/-- The parameters of a function, from the opening parenthesis on; last first. -/
def parameterList (rules : Rules) (p : Place) (n : Nat) (parts : List Tree) (c : Cursor) : Forms :=
  if c.isOp "(" && !c.slips p.indent then
    let d := c.next.afterBracket
    if d.isOp ")" then .ok (parts, d.next)
    else parameters rules p.inBrackets true ")" n parts d
  else stuck c

/-- A function, from its `def` on; `line` is the line of its first word. -/
def functionDefinition (rules : Rules) (p : Place) (isAsync : Bool) (line : Nat) (n : Nat)
    (c : Cursor) : Reading := do
  let (name, d) ← needName p c.next
  let (parts, d) ← typeParameterList rules p n d
  let (parts, d) ← parameterList rules p n parts d
  let (parts, d) ←
    if d.isOp "->" && !d.slips p.indent then do
      let (t, d) ← rules (.typeHint p false) d.next
      pure (t :: parts, d)
    else pure (parts, d)
  let (t, d) ← body rules p d
  return (.node (.functionDef name isAsync) line (t :: parts).reverse, d)

/-- A class, from its `class` on. -/
def classDefinition (rules : Rules) (p : Place) (n : Nat) (c : Cursor) : Reading := do
  let (name, d) ← needName p c.next
  let (parts, d) ← typeParameterList rules p n d
  let (parts, d) ←
    if d.isOp "(" && !d.slips p.indent then do
      let (t, d) ← arguments rules p false n d
      pure (t :: parts, d)
    else pure (parts, d)
  let (t, d) ← body rules p d
  return (.node (.classDef name) c.line (t :: parts).reverse, d)

/-- A class or a function, if one stands here. -/
def definition? (rules : Rules) (p : Place) (n : Nat) (c : Cursor) : Option Reading :=
  if c.isWord "class" then some (classDefinition rules p n c)
  else if c.isWord "def" then some (functionDefinition rules p false c.line n c)
  else if c.isWord "async" && c.next.isWord "def" then
    some (functionDefinition rules p true c.line n c.next)
  else none

/-- A decorator. A remark between its mark and what decorates is a part of its own. -/
def decoratorLine (rules : Rules) (p : Place) (c : Cursor) : Reading := do
  let q : Place := { indent := p.indent, ends := true }
  let d := c.next
  let (t, e) ← rules (.expression q false) d
  if e.indent.isSome then
    let remarks := if d.remarked then [Tree.node .remark d.line []] else []
    return (.node .decorator c.line (remarks ++ [t]), e)
  else stuck e

/-- Decorators and the definition after them; the decorators come last first. -/
def decorated (rules : Rules) (p : Place) (line : Nat) : Nat → List Tree → Cursor → Reading
  | 0, _, c => stuck c
  | n + 1, acc, c =>
    if c.slips p.indent then stuck c
    else if c.isOp "@" then
      match decoratorLine rules p c with
      | .ok (t, d) => decorated rules p line n (t :: acc) d
      | .error f => .error f
    else match definition? rules p n c with
      | some (.ok (t, d)) => .ok (.node .decorated line (t :: acc).reverse, d)
      | some (.error f) => .error f
      | none => stuck c

/-! ## Matching -/

/-- The patterns of a `case`, up to its guard or its colon; last first. -/
def casePatterns (rules : Rules) (p : Place) : Nat → List Tree → Cursor → Forms
  | 0, _, c => stuck c
  | n + 1, acc, c =>
    match rules (.casePattern p false) c with
    | .error f => .error f
    | .ok (t, d) =>
      if d.isOp "," && !d.cutOff p then
        let e := d.next
        if e.isOp ":" || e.isWord "if" then .ok (t :: acc, e)
        else casePatterns rules p n (t :: acc) e
      else .ok (t :: acc, d)

/-- A `case` clause. -/
def caseClause (rules : Rules) (p : Place) (n : Nat) (c : Cursor) : Reading := do
  let (parts, d) ← casePatterns rules p n [] c.next
  let (parts, d) ←
    if d.isWord "if" && !d.cutOff p then do
      let (t, d) ← rules (.expression p false) d.next
      pure (t :: parts, d)
    else pure (parts, d)
  let (t, d) ← body rules p d
  return (.node .other c.line (t :: parts).reverse, d)

/-- The `case` clauses up to a line that is indented less; last first. -/
def caseClauses (rules : Rules) (p : Place) : Nat → List Tree → Cursor → Forms
  | 0, _, c => stuck c
  | n + 1, acc, c =>
    if c.token = .ending || c.slips p.indent then .ok (acc, c)
    else if c.isWord "case" then
      match caseClause rules p n c with
      | .ok (t, d) => caseClauses rules p n (t :: acc) d
      | .error f => .error f
    else stuck c

/-- The header of a `match` statement up to the line under it. -/
def matchHeader (rules : Rules) (p : Place) (n : Nat) (c : Cursor) : Forms := do
  let (parts, _, d) ← expressions rules p false n false [] c.next
  let d ← needOp p ":" d
  match d.indent with
  | none => stuck d
  | some width =>
    if p.indent < width && d.token ≠ .ending && !d.isWord "case" then stuck d
    else return (parts, d)

/-- A `match` statement, or an expression that begins with the name `match`. -/
def matchStatement (rules : Rules) (p : Place) (n : Nat) (c : Cursor) : Reading :=
  match matchHeader rules p n c with
  | .ok (parts, d) =>
    match d.indent with
    | some width =>
      if p.indent < width && d.token ≠ .ending then do
        let (clauses, e) ← caseClauses rules { indent := width } n [] d
        return (.node .other c.line (clauses ++ parts).reverse, e)
      else return (.node .other c.line parts.reverse, d)
    | none => stuck d
  | .error f =>
    match simpleLine rules p.indent n c with
    | .ok r => .ok r
    | .error g => .error (f.later g)

/-! ## Statements -/

/-- A statement that `async` may stand in front of. -/
def asyncStatement? (rules : Rules) (p : Place) (n : Nat) (c : Cursor) : Option Reading :=
  let d := c.next
  if !c.isWord "async" || d.indent.isSome then none
  else if d.isWord "for" then some (forStatement rules p n d)
  else if d.isWord "with" then some (withStatement rules p n d)
  else if d.isWord "def" then some (functionDefinition rules p true c.line n d)
  else none

/-- A statement in a block with the given indentation. -/
def statement (rules : Rules) (indent : Nat) (n : Nat) (c : Cursor) : Reading :=
  let p : Place := { indent }
  match c.token with
  | .op "@" => decorated rules p c.line n [] c
  | .word w =>
    if w = "if" then ifStatement rules p n c
    else if w = "for" then forStatement rules p n c
    else if w = "while" then whileStatement rules p c
    else if w = "try" then tryStatement rules p n c
    else if w = "with" then withStatement rules p n c
    else if w = "class" then classDefinition rules p n c
    else if w = "def" then functionDefinition rules p false c.line n c
    else if w = "match" then matchStatement rules p n c
    else match asyncStatement? rules p n c with
      | some reading => reading
      | none => simpleLine rules indent n c
  | _ => simpleLine rules indent n c

end Cartograph.Python
