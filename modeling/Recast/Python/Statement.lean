/-
  Python/Statement.lean --- the grammar of statements.

  A body is either the rest of the line, an indented block or nothing at all.  Comments behind the
  last statement of a block belong to it as long as they are indented like the block.
-/
import Recast.Python.Pattern

set_option autoImplicit false

namespace Recast.Python

open Recast.Python.Parser

/-! ## Statements on one line -/

/-- Where a statement may begin: inside a block the block may also end here. -/
def statementStart : Parser Expect := do
  let c ← get
  return { dedent := !c.indents.isEmpty, text := true }

/-- Whether a statement without a body is complete here. -/
def statementEnds : Parser Bool := do
  let e := Follow.statement.after
  return (← lineEnds e) || startsWith ";" [] (← codeAhead e)

/-- A step whose statement has to be complete where it ends. -/
def complete {α : Type} (p : Parser α) : Parser α := do
  let a ← p
  if ← statementEnds then return a else failure

/-- Symbols that assign the result of an operation. -/
def assigningSymbols : List String :=
  ["**=", "//=", ">>=", "<<=", "+=", "-=", "*=", "/=", "@=", "%=", "&=", "^=", "|="]

/-- Reads a symbol that assigns the result of an operation. -/
def assigningSymbol? : Parser Bool := do
  let e := Follow.statement.after
  let cs ← codeAhead e
  match assigningSymbols.find? fun s => startsWith s [] cs with
  | some s => symbol? e s
  | none => return false

/-- What follows the left side of an assignment; nothing if no assignment follows. -/
def assignment? (nested : Nested) (left : List Expr) : Parser (Option (List Expr)) := do
  let e := Follow.statement.after
  if ← symbol? e "=" ["=="] <||> assigningSymbol? then
    if !Expr.areTargets left then failure
    return some (← nested _ .assigned)
  else if ← symbol? e ":" then
    if !Expr.areTargets left then failure
    let first ← nested _ (.hint .statement)
    let more ← collect do
      if ← symbol? e ":" then return some (← nested _ (.hint .statement)) else return none
    let hint := first ++ more.flatten
    if ← symbol? e "=" ["=="] then return some (hint ++ (← nested _ .assigned))
    else return some hint
  else return none

/-- What stands behind an assignment sign: values, possibly assigned further. -/
def assigned (nested : Nested) : Parser (List Expr) := do
  if ← word? .operand "yield" then return [← yielded nested .statement]
  else
    let values ← expressionList nested .statement
    return values ++ ((← assignment? nested values).getD [])

/-- A statement that begins with an expression. -/
def expressionStatement (nested : Nested) : Parser Stmt := do
  if ← word? (← statementStart) "yield" then return .plain [← yielded nested .statement]
  else
    let values ← expressionList nested .statement
    match ← assignment? nested values with
    | some more => return .plain (values ++ more)
    | none =>
      match values with
      | first :: others => return .expression first others
      | [] => failure

/-- A dotted name, as written. -/
def dottedText (e : Expect) : Parser String := do
  return (← spanned e (dottedName e)).2

/-- Imported names as written, without the names they are given; a comma may stand behind the last
one. -/
def importedNames (f : Follow) : Parser (List String) := do
  let one (e : Expect) : Parser String := do
    let text ← dottedText e
    if ← word? f.after "as" then discard (name .plain)
    return text
  let first ← one .plain
  let more ← collect do
    if ← symbol? f.after "," then
      if (← wordAhead f.after).isSome then return some (some (← one f.after)) else return some none
    else return none
  return first :: more.reduceOption

/-- Imported names, possibly in parentheses. -/
def importedSymbols : Parser (List String) := do
  if ← symbol? .plain "(" then
    let names ← importedNames .bracketed
    symbol Follow.bracketed.after ")"
    return names
  else importedNames .statement

/-- An import from a module, after the word `from`.  An import of future features imports nothing.
-/
def importFrom : Parser Stmt := do
  if ← word? .plain "__future__" then
    word .plain "import"
    discard importedSymbols
    return .plain []
  else
    let (_, module) ← spanned .plain do
      let dots ← collect do
        if ← symbol? .plain "." then return some () else return none
      if dots.isEmpty then dottedName .plain
      else if !(← atWord .plain "import") then dottedName .plain
    word .plain "import"
    if ← symbol? .plain "*" then return .importsFrom module ["*"]
    else return .importsFrom module (← importedSymbols)

/-- Names after commas. -/
def nameList : Parser Unit := do
  discard (commaSeparated Follow.statement.after (name .plain))

/-- `print` as a statement, after the word. -/
def printStatement (nested : Nested) : Parser Stmt := do
  let f := Follow.statement
  let item : Parser Expr := nested _ (.expression f)
  let first ← do
    discard (symbol? f.orOperand ">>" [">>="])
    item
  let more ← collect do
    if ← symbol? f.after "," then
      if ← operand? f.orOperand then return some (some (← item)) else return some none
    else return none
  return .plain (first :: more.reduceOption)

/-- `exec` as a statement, after the word. -/
def execStatement (nested : Nested) : Parser Stmt := do
  let f := Follow.statement
  let code ← do
    match (← ahead f.orOperand).next with
    | .text => textLiteral nested f.orOperand
    | _ => pure (.name (← name f.orOperand))
  if ← word? f.after "in" then
    return .plain (code :: (← commaSeparated f.after (nested _ (.expression f))))
  else return .plain [code]

/-- The definition of a type name, after the word `type`. -/
def typeStatement (nested : Nested) : Parser Stmt := do
  let left ← nested _ (.hint .inner)
  symbol .plain "=" ["=="]
  return .plain (left ++ (← nested _ (.hint .statement)))

/-- A statement without a body. -/
def simpleStatement (nested : Nested) : Parser Stmt := do
  let f := Follow.statement
  let e ← statementStart
  let before ← get
  let statementOr (keyword : Parser Stmt) : Parser Stmt :=
    complete (do set before; expressionStatement nested) <|>
      complete (do set before; discard (name e); keyword)
  match (← wordAhead e).map Name.text with
  | some "import" =>
    discard (name e)
    return .imports (← importedNames f)
  | some "from" =>
    discard (name e)
    importFrom
  | some "print" =>
    let chevron ← (do
      discard (name e)
      return startsWith ">>" [">>="] (← codeAhead f.after))
    set before
    if chevron then
      discard (name e)
      printStatement nested
    else statementOr (printStatement nested)
  | some "exec" => statementOr (execStatement nested)
  | some "type" =>
    complete (do discard (name e); typeStatement nested) <|>
      complete (do set before; expressionStatement nested)
  | some "assert" =>
    discard (name e)
    return .plain (← commaSeparated f.after (nested _ (.expression f)))
  | some "return" =>
    discard (name e)
    if ← operand? f.orOperand then return .plain (← expressionList nested f)
    else return .plain []
  | some "del" =>
    discard (name e)
    return .plain (← expressionList nested f)
  | some "raise" =>
    discard (name e)
    let raised ← do
      if ← atWord f.orOperand "from" then pure []
      else if ← operand? f.orOperand then raisedValues
      else pure []
    if ← word? f.orOperand "from" then
      return .plain (raised ++ [← nested _ (.expression f)])
    else return .plain raised
  | some "pass" | some "break" | some "continue" =>
    discard (name e)
    return .plain []
  | some "global" | some "nonlocal" =>
    discard (name e)
    nameList
    return .plain []
  | _ => expressionStatement nested
where
  /-- The values after `raise`, up to the word `from`. -/
  raisedValues : Parser (List Expr) := do
    let f := Follow.statement
    let first ← nested _ (.expression f)
    let more ← collect do
      if ← symbol? f.after "," then
        if (← operand? f.orOperand) && !(← atWord f.orOperand "from") then
          return some (some (← nested _ (.expression f)))
        else return some none
      else return none
    return first :: more.reduceOption

/-- The statements of one line. -/
def statementLine (nested : Nested) : Parser (List Stmt) := do
  let first ← simpleStatement nested
  let more ← collect do
    if ← symbol? Follow.statement.after ";" then
      if ← lineEnds Follow.statement.orOperand then return some none
      else return some (some (← simpleStatement nested))
    else return none
  if ← lineEnds Follow.statement.after then return first :: more.reduceOption else failure

/-! ## Statements with bodies -/

/-- The line that the text read so far ends on. -/
def currentLine : Parser Nat := do return (← get).line

/-- A body after its colon. -/
def bodyOf (nested : Nested) : Parser (List Stmt × Nat) := do
  symbol .plain ":"
  nested _ .suite

/-- A clause with the given expressions in its head. -/
def openClause (nested : Nested) (heads : List Expr) : Parser Clause := do
  return .mk true heads (← bodyOf nested).1

/-- An optional clause that begins with a word. -/
def clauseAfter? (nested : Nested) (w : String) : Parser (List Clause) := do
  if ← word? (← statementStart) w then return [← openClause nested []] else return []

/-- `if`, after the word. -/
def ifStatement (nested : Nested) : Parser Stmt := do
  let branch : Parser Clause := do openClause nested [← nested _ (.expression .inner)]
  let first ← branch
  let more ← collect do
    if ← word? (← statementStart) "elif" then return some (← branch) else return none
  return .compound (first :: more ++ (← clauseAfter? nested "else"))

/-- `for`, after the word. -/
def forStatement (nested : Nested) : Parser Stmt := do
  let targets ← loopTargets (postfixed nested)
  let source ← expressionList nested .inner
  let first ← openClause nested (targets ++ source)
  return .compound (first :: (← clauseAfter? nested "else"))

/-- `while`, after the word. -/
def whileStatement (nested : Nested) : Parser Stmt := do
  let first ← openClause nested [← nested _ (.expression .inner)]
  return .compound (first :: (← clauseAfter? nested "else"))

/-- `with`, after the word. -/
def withStatement (nested : Nested) : Parser Stmt := do
  return .compound [← openClause nested (← expressionList nested .inner)]

/-- Where an exception handler may begin. -/
def handlerStart (tried : Bool) : Parser Expect := do
  let e ← statementStart
  return { e with handler := true, dedent := e.dedent && tried, text := tried }

/-- A handler of exceptions, after its first word. -/
def handler (nested : Nested) : Parser Clause := do
  if startsWith ":" [] (← codeAhead .operand) then openClause nested []
  else
    let caught ← nested _ (.expression .inner)
    let named ← do
      if ← symbol? .plain "," then pure [← nested _ (.expression .inner)] else pure []
    openClause nested (caught :: named)

/-- Whether the word `except` comes next with a star right behind it. -/
def atGroupHandler (e : Expect) : Parser Bool := do
  return startsWith "except*" [] (← codeAhead e)

/-- A handler of exception groups, after its first word.  Its declarations do not count. -/
def groupHandler (nested : Nested) : Parser Clause := do
  symbol .plain "*"
  let caught ← nested _ (.expression .inner)
  return .mk false [caught] (← bodyOf nested).1

/-- `try`, after the word: handlers, all of one kind, and what runs at the end. -/
def tryStatement (nested : Nested) : Parser Stmt := do
  let first ← openClause nested []
  let e ← handlerStart false
  if ← word? e "finally" then return .compound [first, ← openClause nested []]
  else
    let grouped ← atGroupHandler e
    let one (e : Expect) : Parser (Option Clause) := do
      if grouped then
        if ← atGroupHandler e then
          discard (name e)
          return some (← groupHandler nested)
        else return none
      else if ← word? e "except" then return some (← handler nested)
      else return none
    match ← one e with
    | none => failure
    | some h =>
      let more ← collect do one (← handlerStart true)
      let otherwise ← clauseAfter? nested "else"
      let finally_ ← clauseAfter? nested "finally"
      return .compound (first :: h :: more ++ otherwise ++ finally_)

/-- `match` as a statement, after the word.  The declarations in its clauses do not count. -/
def matchStatement (nested : Nested) : Parser Stmt := do
  let subjects ← expressionList nested .inner
  symbol .plain ":"
  let e : Expect := { newline := true, indent := true }
  match (← ahead e).next with
  | .layout .newline => return .compound [.mk false subjects []]
  | .layout (.indent column) =>
    modify fun c => { c with indents := column :: c.indents }
    let cases ← collect do
      let e : Expect := { dedent := true }
      if ← word? e "case" then
        let patterns ← nested _ .pattern
        let more ← collect do
          if ← symbol? .plain "," then
            let ends := startsWith ":" [] (← codeAhead .operand) || (← atWord .operand "if")
            if ends then return some [] else return some (← nested _ .pattern)
          else return none
        let guard ← do
          if ← word? .plain "if" then
            pure [← nested _ (.expression { condition := true })]
          else pure []
        let body ← bodyOf nested
        return some (.mk false (patterns ++ more.flatten ++ guard) body.1)
      else return none
    match (← ahead { dedent := true }).next with
    | .layout .dedent =>
      modify fun c => { c with indents := c.indents.tail }
      return .compound (.mk false subjects [] :: cases)
    | _ => failure
  | _ => failure

/-! ## Declarations -/

/-- Type parameters in brackets. -/
def typeParameters (nested : Nested) : Parser Unit := do
  if ← symbol? .plain "[" then
    let item : Parser (List Expr) := do
      let first ← nested _ (.hint .bracketed)
      let bounds ← collect do
        if ← symbol? Follow.bracketed.after ":" then return some (← nested _ (.hint .bracketed))
        else return none
      return first ++ bounds.flatten
    discard item
    discard (moreItems "]" item)

/-- A function after the word `def`. -/
def functionDefinition (nested : Nested) (decorators : List Expr) (line : Nat) : Parser Stmt := do
  let n ← name .plain
  typeParameters nested
  symbol .plain "("
  let params ← parameters nested true .bracketed ")"
  if ← symbol? .plain "->" then discard (nested _ (.hint .inner))
  let (body, endLine) ← bodyOf nested
  return .function decorators line n (params.filterMap Parameter.listed) body endLine

/-- A class after the word `class`. -/
def classDefinition (nested : Nested) (decorators : List Expr) (line : Nat) : Parser Stmt := do
  let n ← name .plain
  typeParameters nested
  let args ← do
    if ← symbol? .plain "(" then arguments nested (postfixed nested) false else pure []
  let (body, _) ← bodyOf nested
  let bases := (args.filter Argument.positional).map Argument.text
  return .classDef decorators line n bases body

/-- A function or a class with its decorators; the first line is that of the first decorator. -/
def declaration (nested : Nested) (decorators : List Expr) (line : Nat) : Parser Stmt := do
  if ← word? .plain "class" then classDefinition nested decorators line
  else
    discard (word? .plain "async")
    word .plain "def"
    functionDefinition nested decorators line

/-- A decorated declaration. -/
def decorated (nested : Nested) (e : Expect) : Parser Stmt := do
  let line := (← ahead e).place.line
  let one (e : Expect) : Parser (Option Expr) := do
    if ← symbol? e "@" then
      let d ← nested _ (.expression .statement)
      if ← lineEnds Follow.statement.after then return some d else failure
    else return none
  match ← one e with
  | none => failure
  | some first =>
    let more ← collect (one .plain)
    declaration nested (first :: more) line

/-! ## Statement lists -/

/-- A statement, or the statements of one line. -/
def statement (nested : Nested) : Parser (List Stmt) := do
  let e ← statementStart
  let a ← ahead e
  set a.place
  let line := a.place.line
  let before ← get
  let single (p : Parser Stmt) : Parser (List Stmt) := do return [← p]
  let keyword (p : Parser Stmt) : Parser (List Stmt) := do
    discard (name e)
    single p
  if startsWith "@" [] (← codeAhead e) then single (decorated nested e)
  else
    match (← wordAhead e).map Name.text with
    | some "if" => keyword (ifStatement nested)
    | some "for" => keyword (forStatement nested)
    | some "while" => keyword (whileStatement nested)
    | some "try" => keyword (tryStatement nested)
    | some "with" => keyword (withStatement nested)
    | some "def" => single (declaration' e line)
    | some "class" => single (declaration' e line)
    | some "async" =>
      discard (name e)
      let after := Follow.statement.after
      if ← atWord after "def" then
        discard (name after)
        single (functionDefinition nested [] line)
      else if ← word? after "for" then single (forStatement nested)
      else if ← word? after "with" then single (withStatement nested)
      else
        set before
        statementLine nested
    | some "match" =>
      keyword (matchStatement nested) <|> (do set before; statementLine nested)
    | _ => statementLine nested
where
  /-- A declaration without decorators. -/
  declaration' (e : Expect) (line : Nat) : Parser Stmt := do
    if ← word? e "class" then classDefinition nested [] line
    else
      word e "def"
      functionDefinition nested [] line

/-- Statements up to the end of the block or of the file. -/
def statements (nested : Nested) : Parser (List Stmt) := do
  let groups ← collect do
    match (← ahead (← statementStart)).next with
    | .layout _ => return none
    | .finish => return none
    | _ => return some (← statement nested)
  return groups.flatten

/-- The body of a clause after its colon, with the line it ends on. -/
def suite (nested : Nested) : Parser (List Stmt × Nat) := do
  let e : Expect := { newline := true, indent := true, text := true }
  match (← ahead e).next with
  | .layout .newline => return ([], ← currentLine)
  | .layout (.indent column) =>
    modify fun c => { c with indents := column :: c.indents }
    let body ← statements nested
    let a ← ahead (← statementStart)
    match a.next with
    | .layout .dedent =>
      set { a.place with indents := a.place.indents.tail }
      return (body, a.place.line)
    | _ => failure
  | _ =>
    let body ← statementLine nested
    return (body, ← currentLine)

end Recast.Python
