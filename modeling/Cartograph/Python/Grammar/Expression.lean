import Cartograph.Python.Grammar.Strings

/-!
# Expressions

Operands, what trails them, and the operators between them. Operators are read in a row: how
strongly they bind decides nothing that the library looks at, because calls keep their order in the
text whichever way operands are grouped.
-/

namespace Cartograph.Python

/-- Forms, last first, and the place after them. -/
abbrev Forms := Except Fault (List Tree × Cursor)

/-- The token may begin an expression that a comma announced. -/
def startsExpression (c : Cursor) : Bool :=
  startsOperand c || c.isWord "not"

/-! ## Lists of expressions -/

/-- Expressions with commas between them, the last of which may be left without a follower. The
answer says whether there was a comma. -/
def expressions (rules : Rules) (p : Place) (fresh : Bool) :
    Nat → Bool → List Tree → Cursor → Except Fault (List Tree × Bool × Cursor)
  | 0, _, _, c => stuck c
  | n + 1, several, acc, c =>
    match rules (.expression p fresh) c with
    | .error f => .error f
    | .ok (t, after) =>
      if after.isOp "," && !after.cutOff p then
        let d := after.next
        if d.cutOff p || !startsExpression d then .ok (t :: acc, true, d)
        else expressions rules p p.bracketed n true (t :: acc) d
      else .ok (t :: acc, several, after)

/-- One expression or several with commas between them, as one form. -/
def expressionList (rules : Rules) (p : Place) (fresh : Bool) (n : Nat) (c : Cursor) : Reading :=
  match expressions rules p fresh n false [] c with
  | .ok (ts, several, after) =>
    .ok (if several then .node .tuple c.line ts.reverse else wrap c.line ts, after)
  | .error f => .error f

/-- A `yield` and what it gives. -/
def yielded (rules : Rules) (p : Place) (n : Nat) (c : Cursor) : Reading :=
  let d := c.next
  if d.cutOff p then .ok (.node .other c.line [], d)
  else if d.isWord "from" then
    match rules (.expression p false) d.next with
    | .ok (t, after) => .ok (.node .other c.line [t], after)
    | .error f => .error f
  else if startsExpression d then
    match expressionList rules p p.bracketed n d with
    | .ok (t, after) => .ok (.node .other c.line [t], after)
    | .error f => .error f
  else .ok (.node .other c.line [], d)

/-! ## Comprehensions -/

/-- A comprehension goes on here. -/
def comprehends (c : Cursor) : Bool :=
  c.isWord "for" || (c.isWord "async" && c.next.isWord "for")

/-- What a `for` sets, up to its `in`; last first. -/
def targets (rules : Rules) (p : Place) : Nat → List Tree → Cursor → Forms
  | 0, _, c => stuck c
  | n + 1, acc, c =>
    match rules (.operand p.inner false) c with
    | .error f => .error f
    | .ok (t, after) =>
      if !isTarget t then stuck c
      else if after.isOp "," then
        if after.next.isWord "in" then .ok (t :: acc, after.next)
        else targets rules p n (t :: acc) after.next
      else .ok (t :: acc, after)

/-- What a comprehension runs through; last first. -/
def sources (rules : Rules) (p : Place) : Nat → Bool → List Tree → Cursor → Forms
  | 0, _, _, c => stuck c
  | n + 1, fresh, acc, c =>
    match rules (.expression { p with bare := true } fresh) c with
    | .error f => .error f
    | .ok (t, after) =>
      if after.isOp "," then
        let d := after.next.afterBracket
        if startsExpression d && !comprehends d then sources rules p n true (t :: acc) d
        else .ok (t :: acc, d)
      else .ok (t :: acc, after)

/-- The clauses of a comprehension; last first. -/
def clauses (rules : Rules) (p : Place) : Nat → List Tree → Cursor → Forms
  | 0, _, c => stuck c
  | n + 1, acc, c =>
    if comprehends c then
      let c := if c.isWord "async" then c.next else c
      match targets rules p n acc c.next with
      | .error f => .error f
      | .ok (acc, d) =>
        match needWord p.inner "in" d with
        | .error f => .error f
        | .ok d =>
          match sources rules p n false acc d with
          | .error f => .error f
          | .ok (acc, d) => clauses rules p n acc d
    else if c.isWord "if" then
      match rules (.expression { p with bare := true } false) c.next with
      | .error f => .error f
      | .ok (t, d) => clauses rules p n (t :: acc) d
    else .ok (acc, c)

/-! ## Brackets -/

/-- A star with an expression behind it. In front of a comprehension it has to be an expression as a
whole. -/
def starred (rules : Rules) (p : Place) (c : Cursor) : Reading :=
  match rules (.expression p false) c.next with
  | .ok (t, after) =>
    if comprehends after then rules (.expression p true) c
    else .ok (.node .splat c.line [t], after)
  | .error f => .error f

/-- One item of a collection. No comprehension goes on after a `yield`. -/
def item (rules : Rules) (p : Place) (n : Nat) (c : Cursor) : Reading :=
  if c.isWord "yield" then
    match yielded rules p n c with
    | .ok (t, after) => if comprehends after then stuck after else .ok (t, after)
    | .error f => .error f
  else if c.isOp "*" then starred rules p c
  else rules (.expression p true) c

/-- More items after the comma at the place, up to the closing bracket; last first. -/
def moreItems (rules : Rules) (p : Place) (close : String) : Nat → List Tree → Cursor → Forms
  | 0, _, c => stuck c
  | n + 1, acc, c =>
    if c.isOp close then .ok (acc, c.next)
    else if c.isOp "," then
      let d := c.next.afterBracket
      if d.isOp close then .ok (acc, d.next)
      else match item rules p n d with
        | .ok (t, after) => moreItems rules p close n (t :: acc) after
        | .error f => .error f
    else stuck c

/-- A collection after its opening bracket at `c`: the form of one item alone, of items, and the
closing bracket. -/
def collection (rules : Rules) (p : Place) (n : Nat) (line : Nat) (close : String)
    (alone many : Form) (first : Tree) (after : Cursor) : Reading :=
  if comprehends after then
    match clauses rules p n [first] after with
    | .ok (parts, d) => do
      let d ← needOp p close d
      return (.node .other line parts.reverse, d)
    | .error f => .error f
  else if after.isOp close then .ok (.node alone line [first], after.next)
  else match moreItems rules p close n [first] after with
    | .ok (parts, d) => .ok (.node many line parts.reverse, d)
    | .error f => .error f

/-- A form in parentheses, from the opening one on. -/
def parentheses (rules : Rules) (p : Place) (n : Nat) (c : Cursor) : Reading :=
  let q := p.inBrackets
  let d := c.next.afterBracket
  if d.isOp ")" then .ok (.node .tuple c.line [], d.next)
  else match item rules q n d with
    | .ok (t, after) => collection rules q n c.line ")" .parenthesized .tuple t after
    | .error f => .error f

/-- A list, from the opening bracket on. -/
def brackets (rules : Rules) (p : Place) (n : Nat) (c : Cursor) : Reading :=
  let q := p.inBrackets
  let d := c.next.afterBracket
  if d.isOp "]" then .ok (.node .list c.line [], d.next)
  else match item rules q n d with
    | .ok (t, after) => collection rules q n c.line "]" .list .list t after
    | .error f => .error f

/-- An entry of a dictionary. -/
def entry (rules : Rules) (p : Place) (parts : List Tree) (c : Cursor) : Forms :=
  if c.isOp "**" then
    match rules (.expression p false) c.next with
    | .ok (t, after) => .ok (t :: parts, after)
    | .error f => .error f
  else match rules (.expression p true) c with
    | .ok (key, after) => do
      let d ← needOp p.inner ":" after
      let (value, d) ← rules (.expression p false) d
      return (value :: key :: parts, d)
    | .error f => .error f

/-- More entries of a dictionary, up to the closing brace. -/
def moreEntries (rules : Rules) (p : Place) (line : Nat) : Nat → List Tree → Cursor → Reading
  | 0, _, c => stuck c
  | n + 1, parts, c =>
    if c.isOp "\x7d" then .ok (.node .other line parts.reverse, c.next)
    else if c.isOp "," then
      let d := c.next.afterBracket
      if d.isOp "\x7d" then .ok (.node .other line parts.reverse, d.next)
      else match entry rules p parts d with
        | .ok (parts, after) => moreEntries rules p line n parts after
        | .error f => .error f
    else stuck c

/-- A set or a dictionary, from the opening brace on. -/
def braces (rules : Rules) (p : Place) (n : Nat) (c : Cursor) : Reading :=
  let q := p.inBrackets
  let d := c.next.afterBracket
  if d.isOp "\x7d" then moreEntries rules q c.line n [] d
  else if d.isOp "," then
    if d.next.isOp "\x7d" then moreEntries rules q c.line n [] d else stuck d.next
  else if d.isOp "**" then
    match entry rules q [] d with
    | .ok (parts, after) => moreEntries rules q c.line n parts after
    | .error f => .error f
  else match item rules q n d with
    | .error f => .error f
    | .ok (t, after) =>
      if after.isOp ":" && !d.isOp "*" && !d.isWord "yield" then
        match rules (.expression q false) after.next with
        | .error f => .error f
        | .ok (value, e) =>
          if comprehends e then
            match clauses rules q n [value, t] e with
            | .ok (parts, e) => do
              let e ← needOp q "\x7d" e
              return (.node .other c.line parts.reverse, e)
            | .error f => .error f
          else moreEntries rules q c.line n [value, t] e
      else collection rules q n c.line "\x7d" .other .other t after

/-! ## Calls and items -/

/-- The word names an argument. -/
def namesArgument (c : Cursor) : Bool :=
  match c.token with
  | .word w => !isReserved w && c.next.isOp "="
  | _ => false

/-- One argument. -/
def argument (rules : Rules) (p : Place) (c : Cursor) : Reading :=
  if c.isOp "*" then starred rules p c
  else if c.isOp "**" then
    match rules (.expression p false) c.next with
    | .ok (t, after) => .ok (.node .other c.line [t], after)
    | .error f => .error f
  else if namesArgument c then
    match rules (.expression p false) c.next.next with
    | .ok (t, after) => .ok (.node .other c.line [t], after)
    | .error f => .error f
  else rules (.expression p true) c

/-- More arguments, up to the closing parenthesis. -/
def moreArguments (rules : Rules) (p : Place) (line : Nat) : Nat → List Tree → Cursor → Reading
  | 0, _, c => stuck c
  | n + 1, acc, c =>
    if c.isOp ")" then .ok (.node .arguments line acc.reverse, c.next)
    else if c.isOp "," then
      let d := c.next.afterBracket
      if d.isOp ")" then .ok (.node .arguments line acc.reverse, d.next)
      else match argument rules p d with
        | .ok (t, after) => moreArguments rules p line n (t :: acc) after
        | .error f => .error f
    else stuck c

/-- Arguments, from the opening parenthesis on. A comma alone is allowed. With `generates`, one
comprehension may stand in their place. -/
def arguments (rules : Rules) (p : Place) (generates : Bool) (n : Nat) (c : Cursor) : Reading :=
  let q := p.inBrackets
  let d := c.next.afterBracket
  if d.isOp ")" || d.isOp "," then
    if d.isOp "," && !d.next.isOp ")" then stuck d.next
    else moreArguments rules q c.line n [] d
  else match argument rules q d with
    | .error f => .error f
    | .ok (t, after) =>
      if generates && comprehends after && !d.isOp "**" && !namesArgument d then
        match clauses rules q n [t] after with
        | .ok (parts, e) => do
          let e ← needOp q ")" e
          return (.node .other c.line parts.reverse, e)
        | .error f => .error f
      else moreArguments rules q c.line n [t] after

/-- A colon of a slice and the bound after it, if they stand here. -/
def sliceBound (rules : Rules) (p : Place) (acc : List Tree) (c : Cursor) : Forms :=
  if c.isOp ":" then
    let d := c.next.afterBracket
    if d.isOp ":" || d.isOp "," || d.isOp "]" then .ok (acc, d)
    else match rules (.expression p true) d with
      | .ok (t, after) => .ok (t :: acc, after)
      | .error f => .error f
  else .ok (acc, c)

/-- One item between the brackets of a subscript: an expression or a slice. -/
def index (rules : Rules) (p : Place) (acc : List Tree) (c : Cursor) : Forms :=
  if p.typed && c.isOp "**" then do
    let (_, after) ← needName p c.next
    return (acc, after)
  else if c.isOp ":" then do
    let (acc, d) ← sliceBound rules p acc c
    sliceBound rules p acc d
  else do
    let (t, d) ← rules (.expression p true) c
    let (acc, d) ← sliceBound rules p (t :: acc) d
    sliceBound rules p acc d

/-- The items of a subscript up to the closing bracket; last first. -/
def indices (rules : Rules) (p : Place) : Nat → List Tree → Cursor → Forms
  | 0, _, c => stuck c
  | n + 1, acc, c =>
    match index rules p acc c with
    | .error f => .error f
    | .ok (acc, d) =>
      if d.isOp "]" then .ok (acc, d.next)
      else if d.isOp "," then
        let e := d.next.afterBracket
        if e.isOp "]" then .ok (acc, e.next) else indices rules p n acc e
      else stuck d

/-- What trails an operand: attributes, calls and subscripts. -/
def trailers (rules : Rules) (p : Place) : Nat → Tree → Cursor → Reading
  | 0, _, c => stuck c
  | n + 1, t, c =>
    if c.cutOff p then .ok (t, c)
    else if c.isOp "." then
      match needName p c.next with
      | .ok (name, after) => trailers rules p n (.node (.attribute name) t.line [t]) after
      | .error f => .error f
    else if c.isOp "(" then
      match arguments rules p true n c with
      | .ok (args, after) => trailers rules p n (.node .call t.line [t, args]) after
      | .error f => .error f
    else if c.isOp "[" then
      match indices rules p.inBrackets n [t] c.next.afterBracket with
      | .ok (parts, after) => trailers rules p n (.node .subscript t.line parts.reverse) after
      | .error f => .error f
    else .ok (t, c)

/-! ## Operands -/

/-- A word, a number, strings or a bracket. -/
def atom (rules : Rules) (p : Place) (n : Nat) (c : Cursor) : Reading :=
  match c.token with
  | .word w =>
    if w = "None" || w = "True" || w = "False" then .ok (.node .other c.line [], c.next)
    else if isReserved w then stuck c
    else .ok (.node (.name w) c.line [], c.next)
  | .number => .ok (.node .other c.line [], c.next)
  | .stringStart _ => strings rules p c.line n [] c
  | .op text =>
    if text = "(" then parentheses rules p n c
    else if text = "[" then brackets rules p n c
    else if text = "\x7b" then braces rules p n c
    else if text = "..." then .ok (.node .other c.line [], c.next)
    else stuck c
  | _ => stuck c

/-- An operand of an operator. -/
def operand (rules : Rules) (p : Place) (fresh : Bool) (n : Nat) (c : Cursor) : Reading :=
  if c.misplaced p fresh then stuck c
  else if c.isOp "-" || c.isOp "+" || c.isOp "~" then
    match rules (.operand p false) c.next with
    | .ok (t, after) => .ok (.node .other c.line [t], after)
    | .error f => .error f
  else if c.isOp "*" then
    match rules (.operand p false) c.next with
    | .ok (t, after) =>
      match starUnder c.line t with
      | some starred => .ok (starred, after)
      | none => stuck c
    | .error f => .error f
  else if c.isWord "await" && startsOperand c.next && !c.next.ended p then
    match rules (.operand p false) c.next with
    | .ok (t, after) => .ok (.node .other c.line [t], after)
    | .error f => .error f
  else match atom rules p n c with
    | .ok (t, after) => trailers rules p n t after
    | .error f => .error f

/-! ## Operators -/

/-- Operators between two operands. -/
def betweenOperands : List String :=
  ["+", "-", "*", "@", "/", "%", "//", "**", "|", "&", "^", "<<", ">>", "<", "<=", "==", "!=", ">=",
    ">", "<>"]

/-- The place after an operator between two operands, if one stands here. -/
def afterOperator? (c : Cursor) : Option Cursor :=
  match c.token with
  | .op text => if betweenOperands.contains text then some c.next else none
  | .word w =>
    if w = "in" then some c.next
    else if w = "is" then if c.next.isWord "not" then some c.next.next else some c.next
    else if w = "not" then if c.next.isWord "in" then some c.next.next else none
    else none
  | _ => none

/-- Operands with operators between them; last first. -/
def operands (rules : Rules) (p : Place) : Nat → List Tree → Cursor → Forms
  | 0, _, c => stuck c
  | n + 1, acc, c =>
    if c.cutOff p then .ok (acc, c)
    else match afterOperator? c with
      | none => .ok (acc, c)
      | some d =>
        match rules (.operand p false) d with
        | .ok (t, after) => operands rules p n (t :: acc) after
        | .error f => .error f

/-! ## Parameters -/

/-- What a parameter is set to if it is not given. -/
def defaultValue (rules : Rules) (p : Place) (parts : List Tree) (c : Cursor) : Forms :=
  if c.isOp "=" && !c.cutOff p then
    match rules (.expression p false) c.next with
    | .ok (t, after) => .ok (t :: parts, after)
    | .error f => .error f
  else .ok (parts, c)

/-- What a parameter holds, where `typed` allows to say so. -/
def parameterType (rules : Rules) (p : Place) (typed : Bool) (parts : List Tree) (c : Cursor) :
    Forms :=
  if typed && c.isOp ":" then
    match rules (.typeHint p true) c.next with
    | .ok (t, after) => .ok (t :: parts, after)
    | .error f => .error f
  else .ok (parts, c)

/-- A parameter after its star or stars. -/
def starredParameter (rules : Rules) (p : Place) (typed : Bool) (parts : List Tree) (c : Cursor) :
    Forms :=
  match rules (.operand p false) c with
  | .ok (t, after) =>
    if isPlainTarget t then parameterType rules p typed (t :: parts) after else stuck c
  | .error f => .error f

/-- One parameter; what it says comes in front of `parts`, last first. -/
def parameter (rules : Rules) (p : Place) (typed : Bool) (n : Nat) (parts : List Tree)
    (c : Cursor) : Forms :=
  match c.token with
  | .word _ =>
    if c.slips p.indent then stuck c
    else do
      let (parts, d) ← parameterType rules p typed parts c.next
      defaultValue rules p parts d
  | .op text =>
    if text = "*" then
      let d := c.next
      if d.isOp "," || d.isOp ")" || d.isOp ":" then .ok (parts, d)
      else starredParameter rules p typed parts d
    else if text = "**" then starredParameter rules p typed parts c.next
    else if text = "/" then .ok (parts, c.next)
    else if text = "(" then
      match parentheses rules p n c with
      | .ok (t, after) => if isTarget t then defaultValue rules p (t :: parts) after else stuck c
      | .error f => .error f
    else stuck c
  | _ => stuck c

/-- Parameters up to what closes them; last first. -/
def parameters (rules : Rules) (p : Place) (typed : Bool) (close : String) :
    Nat → List Tree → Cursor → Forms
  | 0, _, c => stuck c
  | n + 1, parts, c =>
    match parameter rules p typed n parts c with
    | .error f => .error f
    | .ok (parts, d) =>
      if d.isOp close then .ok (parts, d.next)
      else if d.isOp "," then
        let e := if p.bracketed then d.next.afterBracket else d.next
        if e.isOp close then .ok (parts, e.next) else parameters rules p typed close n parts e
      else stuck d

/-- A `lambda`, from its keyword on. -/
def anonymous (rules : Rules) (p : Place) (n : Nat) (c : Cursor) : Reading := do
  let d := c.next
  let (parts, body) ←
    if d.isOp ":" then pure ([], d.next) else parameters rules p.inner false ":" n [] d
  let (t, after) ← rules (.expression p false) body
  return (.node .other c.line (t :: parts).reverse, after)

/-! ## Expressions -/

/-- A name that is set inside an expression stands here. -/
def setsName (p : Place) (c : Cursor) : Bool :=
  match c.token with
  | .word w => !isReserved w && c.next.isOp ":=" && !c.next.cutOff p
  | _ => false

/-- An expression without a condition and without `and` and `or` after it. -/
def part (rules : Rules) (p : Place) (fresh : Bool) (n : Nat) (c : Cursor) : Reading :=
  if c.misplaced p fresh then stuck c
  else if c.isWord "not" then
    match rules (.part p false) c.next with
    | .ok (t, after) => .ok (.node .other c.line [t], after)
    | .error f => .error f
  else if c.isWord "lambda" then anonymous rules p n c
  else if setsName p c then
    match rules (.expression p false) c.next.next with
    | .ok (t, after) => .ok (.node .other c.line [t], after)
    | .error f => .error f
  else match rules (.operand p fresh) c with
    | .error f => .error f
    | .ok (t, after) =>
      match operands rules p n [t] after with
      | .ok (ts, d) => .ok (wrap c.line ts, d)
      | .error f => .error f

/-- What `and`, `or`, `as` and conditions add after an expression. -/
def continuations (rules : Rules) (p : Place) (line : Nat) : Nat → List Tree → Cursor → Reading
  | 0, _, c => stuck c
  | n + 1, acc, c =>
    if c.cutOff p then .ok (wrap line acc, c)
    else if c.isWord "and" || c.isWord "or" || c.isWord "as" then
      match rules (.part p false) c.next with
      | .ok (t, after) => continuations rules p line n (t :: acc) after
      | .error f => .error f
    else if c.isWord "if" && !p.bare then
      match rules (.expression p.inner false) c.next with
      | .error f => .error f
      | .ok (condition, d) =>
        match needWord p.inner "else" d with
        | .error f => .error f
        | .ok d =>
          match rules (.expression p false) d with
          | .ok (t, after) => continuations rules p line n (t :: condition :: acc) after
          | .error f => .error f
    else .ok (wrap line acc, c)

/-- An expression. -/
def expression (rules : Rules) (p : Place) (fresh : Bool) (n : Nat) (c : Cursor) : Reading :=
  match rules (.part p fresh) c with
  | .ok (t, after) => continuations rules p c.line n [t] after
  | .error f => .error f

/-- What a name holds. -/
def typeHint (rules : Rules) (p : Place) (bounded : Bool) (c : Cursor) : Reading := do
  let (first, d) ←
    if c.isOp "**" then do
      let (_, d) ← needName p c.next
      pure (Tree.node .other c.line [], d)
    else rules (.expression { p with typed := true } false) c
  if d.cutOff p then return (first, d)
  else if d.isOp "|" then
    let (second, e) ← rules (.typeHint p bounded) d.next
    return (.node .other c.line [first, second], e)
  else if bounded && d.isOp ":" then
    let (second, e) ← rules (.typeHint p bounded) d.next
    return (.node .other c.line [first, second], e)
  else return (first, d)

/-- A field of a formatted string, after its opening brace and up to its closing one. -/
def field (rules : Rules) (p : Place) (n : Nat) (c : Cursor) : Reading :=
  let q := p.inBrackets
  let c := c.afterBracket
  if c.isWord "yield" then
    match yielded rules q n c with
    | .ok (t, after) => fieldEnd rules q n c.line [t] after
    | .error f => .error f
  else match expressions rules q true n false [] c with
    | .ok (ts, _, after) => fieldEnd rules q n c.line ts after
    | .error f => .error f

end Cartograph.Python
