/-
  Python/Expression.lean --- the grammar of expressions.

  Operators are read without regard to how tightly they bind: binding decides neither whether a
  text is an expression nor which calls it holds.
-/
import Recast.Python.Literal

set_option autoImplicit false

namespace Recast.Python

open Recast.Python.Parser

/-! ## Operators -/

/-- Operators between operands and the longer symbols that they must not be a part of, longest
symbols first.  Symbols that end in `=` assign and are no operators. -/
def operatorSymbols : List (String × List String) :=
  [("**", ["**="]), ("//", ["//="]), (">>", [">>="]), ("<<", ["<<="]), ("<=", []), (">=", []),
   ("==", []), ("!=", []), ("<>", []), ("+", ["+="]), ("-", ["-=", "->"]), ("*", ["*=", "**"]),
   ("/", ["/=", "//"]), ("%", ["%="]), ("@", ["@="]), ("|", ["|="]), ("&", ["&="]), ("^", ["^="]),
   ("<", ["<<"]), (">", [">>"])]

/-- Reads an operator symbol. -/
def operatorSymbol? (e : Expect) : Parser Bool := do
  let cs ← codeAhead e
  match operatorSymbols.find? fun (s, longer) => startsWith s longer cs with
  | some (s, _) => symbol? e s
  | none => return false

/-- Reads an operator between operands: a symbol, `in`, `not in`, `is` or `is not`. -/
def operator? (f : Follow) : Parser Bool := do
  if ← operatorSymbol? f.after then return true
  else if ← word? f.after "in" then return true
  else if ← word? f.after "is" then
    discard (word? .operand "not")
    return true
  else if ← word? f.after "not" then
    word .plain "in"
    return true
  else return false

/-! ## Lists of expressions -/

/-- One expression and any further ones after commas; a comma may stand behind the last one. -/
def expressionList (nested : Nested) (f : Follow) : Parser (List Expr) := do
  let first ← nested _ (.expression f)
  let more ← collect do
    if ← symbol? f.after "," then
      if ← operand? f.orOperand then
        return some (some (← nested _ (.expression f)))
      else return some none
    else return none
  return first :: more.reduceOption

/-- `yield` with what it yields, after the word. -/
def yielded (nested : Nested) (f : Follow) : Parser Expr := do
  if ← word? f.orOperand "from" then
    return .compound [← nested _ (.expression f)]
  else if ← operand? f.orOperand then
    return .compound (← expressionList nested f)
  else return .compound []

/-! ## Sequences in brackets -/

/-- Reads the word that begins a clause of a comprehension, if one does. -/
def comprehensionAhead : Parser Bool := do
  let after := Follow.bracketed.after
  return (← atWord after "for") || (← atWord after "async")

/-- An operand with the fields, indices and arguments behind it. -/
abbrev Postfix := Follow → Parser Expr

/-- Assignment targets up to the word `in`. -/
def loopTargets (postfixed : Postfix) : Parser (List Expr) := do
  let target : Parser Expr := do
    let star ← symbol? .operand "*" ["**"]
    let e ← postfixed .inner
    let e := if star then .starred e else e
    if e.isTarget then return e else failure
  let first ← target
  let more ← collect do
    if ← symbol? .plain "," then
      if ← atWord .operand "in" then return some none else return some (some (← target))
    else return none
  word .plain "in"
  return first :: more.reduceOption

/-- The clauses of a comprehension, the first of which is a loop. -/
def comprehensionClauses (nested : Nested) (postfixed : Postfix) : Parser (List Expr) := do
  let after := Follow.bracketed.after
  let source : Follow := { close := true, condition := true }
  let loop? : Parser (Option (List Expr)) := do
    let isAsync ← word? after "async"
    if ← word? after "for" then
      let targets ← loopTargets postfixed
      let first ← nested _ (.expression source)
      let more ← collect do
        if ← symbol? after "," then
          let ends ← do
            if ← operand? source.orOperand then
              pure ((← comprehensionAhead) || (← atWord after "if"))
            else pure true
          if ends then return some none
          else return some (some (← nested _ (.expression source)))
        else return none
      return some (targets ++ first :: more.reduceOption)
    else if isAsync then failure
    else return none
  match ← loop? with
  | none => failure
  | some first =>
    let more ← collect do
      if ← word? after "if" then
        return some [← nested _ (.expression source)]
      else loop?
    return first ++ more.flatten

/-- An item of a sequence in brackets: a `yield`, an expression, or a star in front of one.  A star
in front of a place is part of an expression already. -/
def sequenceItem (nested : Nested) : Parser Expr := do
  let f := Follow.bracketed
  let e := f.orOperand
  if startsWith "*" ["**"] (← codeAhead e) then
    nested _ (.expression f) <|> do
      symbol e "*"
      return .starred (← nested _ (.expression f))
  else if ← word? e "yield" then yielded nested f
  else nested _ (.expression f)

/-- Further items after the first one, each after a comma, up to a closing bracket. -/
def moreItems {α : Type} (close : String) (item : Parser α) : Parser (List α) := do
  let after := Follow.bracketed.after
  let items ← collect do
    if ← symbol? after "," then
      let e := Follow.bracketed.orOperand
      if startsWith close [] (← codeAhead e) then return some none
      approach e
      return some (some (← item))
    else return none
  symbol after close
  return items.reduceOption

/-- A sequence in parentheses or brackets, after the opening one. -/
def sequence (nested : Nested) (postfixed : Postfix) (close : String) : Parser Expr := do
  let f := Follow.bracketed
  if ← symbol? f.orOperand close then return .display []
  approach f.orOperand
  let first ← sequenceItem nested
  if ← comprehensionAhead then
    let clauses ← comprehensionClauses nested postfixed
    symbol f.after close
    return .compound (first :: clauses)
  else
    let more ← moreItems close (sequenceItem nested)
    return .display (first :: more)

/-- A pair of a dictionary after its key. -/
def pairValue (nested : Nested) : Parser Expr := do
  symbol Follow.bracketed.after ":"
  nested _ (.expression .bracketed)

/-- An entry of a dictionary: a pair or a spread dictionary. -/
def dictionaryEntry (nested : Nested) : Parser Expr := do
  if ← symbol? Follow.bracketed.orOperand "**" then
    return .compound [← nested _ (.expression .bracketed)]
  else
    let key ← nested _ (.expression .inner)
    return .compound [key, ← pairValue nested]

/-- A set, a dictionary or a comprehension of one, after the opening brace. -/
def braced (nested : Nested) (postfixed : Postfix) : Parser Expr := do
  let f := Follow.bracketed
  let close := "\x7d"
  if ← symbol? f.orOperand close then return .compound []
  else if ← symbol? f.orOperand "," then
    symbol f.after close
    return .compound []
  else if startsWith "**" [] (← codeAhead f.orOperand) then
    let first ← dictionaryEntry nested
    return .compound (first :: (← moreItems close (dictionaryEntry nested)))
  else
    approach f.orOperand
    let first ← sequenceItem nested
    let isPair ← symbol? f.after ":"
    if isPair then
      match first with
      | .starred _ => failure
      | _ => pure ()
      let value ← nested _ (.expression f)
      if ← comprehensionAhead then
        let clauses ← comprehensionClauses nested postfixed
        symbol f.after close
        return .compound (first :: value :: clauses)
      else
        return .compound (first :: value :: (← moreItems close (dictionaryEntry nested)))
    else if ← comprehensionAhead then
      let clauses ← comprehensionClauses nested postfixed
      symbol f.after close
      return .compound (first :: clauses)
    else
      return .compound (first :: (← moreItems close (sequenceItem nested)))

/-! ## Arguments and indices -/

/-- An argument of a call or of a class. -/
structure Argument where
  /-- Whether the argument is a plain expression. -/
  positional : Bool
  text : String
  value : Expr

/-- Words that are keywords wherever an expression may begin. -/
def operandKeywords : List String := ["not", "lambda", "True", "False", "None"]

/-- Reads the name of a keyword argument with the equals sign. -/
def argumentName? (e : Expect) : Parser Bool := do
  match ← wordAhead e with
  | none => return false
  | some w =>
    if operandKeywords.contains w.text then return false
    let c ← get
    discard (name e)
    if ← symbol? Follow.bracketed.after "=" ["=="] then return true
    set c
    return false

/-- An argument. -/
def argument (nested : Nested) : Parser Argument := do
  let f := Follow.bracketed
  approach f.orOperand
  let first ← get
  let (positional, value) ← do
    if ← symbol? f.orOperand "**" then
      pure (false, Expr.compound [← nested _ (.expression f)])
    else if ← symbol? f.orOperand "*" then
      pure (false, Expr.compound [← nested _ (.expression f)])
    else if ← argumentName? f.orOperand then
      pure (false, Expr.compound [← nested _ (.expression f)])
    else pure (true, ← nested _ (.expression f))
  return ⟨positional, first.textTo (← get), value⟩

/-- The joined line ends among the things in front of a token, as arguments: each stands as an item
of its own in the list. -/
def joinedLines (extras : List String) : List Argument :=
  (extras.filter fun s => s.startsWith "\\").map fun s => ⟨true, s, .compound []⟩

/-- The arguments of a call or of a class after the opening parenthesis.  The generator of a call
with a single bare comprehension counts as its argument if `generator` is set. -/
def arguments (nested : Nested) (postfixed : Postfix) (generator : Bool) :
    Parser (List Argument) := do
  let f := Follow.bracketed
  let opening := joinedLines (← ahead f.orOperand).extras
  if ← symbol? f.orOperand ")" then return opening
  else if ← symbol? f.orOperand "," then
    let more := joinedLines (← ahead f.after).extras
    symbol f.after ")"
    return opening ++ more
  else
    let first ← argument nested
    if generator && first.positional && (← comprehensionAhead) then
      let clauses ← comprehensionClauses nested postfixed
      symbol f.after ")"
      return [⟨true, "", .compound (first.value :: clauses)⟩]
    else
      let more ← collect do
        let before := joinedLines (← ahead f.after).extras
        if ← symbol? f.after "," then
          let a ← ahead f.orOperand
          let between := joinedLines a.extras
          if ← operand? f.orOperand then
            return some (before ++ between ++ [← argument nested])
          else return some (before ++ between)
        else return none
      let closing := joinedLines (← ahead f.after).extras
      symbol f.after ")"
      return opening ++ first :: more.flatten ++ closing

/-- An index or a slice. -/
def indexItem (nested : Nested) : Parser Expr := do
  let f := Follow.bracketed
  let bound (e : Expect) : Parser (List Expr) := do
    if ← operand? e then return [← nested _ (.expression f)] else return []
  let first ← bound .operand
  if ← symbol? (if first.isEmpty then .operand else f.after) ":" then
    let stop ← bound f.orOperand
    let step ← do
      if ← symbol? f.after ":" then bound f.orOperand else pure []
    return .compound (first ++ stop ++ step)
  else
    match first with
    | [e] => return e
    | _ => failure

/-! ## Operands -/

/-- A sequence in brackets, a literal, a name or a constant.  The names of constants are literals;
every other word is a name. -/
def atom (nested : Nested) (postfixed : Postfix) (f : Follow) : Parser Expr := do
  let e := Expect.operand
  let a ← ahead e
  match a.next with
  | .text => textLiterals nested e f
  | .code c =>
    if c == '(' then
      symbol e "("
      sequence nested postfixed ")"
    else if c == '[' then
      symbol e "["
      sequence nested postfixed "]"
    else if c == '\x7b' then
      symbol e "\x7b"
      braced nested postfixed
    else if startsWith "..." [] a.place.rest then
      symbol e "..."
      return .compound []
    else
      match number? a.place.rest with
      | some rest =>
        set (a.place.moveTo rest)
        return .compound []
      | none =>
        let n ← name e
        if ["True", "False", "None"].contains n.text then return .compound [] else return .name n
  | _ => failure

/-- The fields, indices and arguments behind an operand. -/
def trailers (nested : Nested) (postfixed : Postfix) (f : Follow) (e : Expr) : Parser Expr :=
  iterate (fun e => do
    if ← symbol? f.after "." then
      return some (.attribute e (← name .plain))
    else if ← symbol? f.after "(" then
      let args ← arguments nested postfixed true
      return some (.call e (args.map Argument.value))
    else if ← symbol? f.after "[" then
      let first ← indexItem nested
      let more ← moreItems "]" (indexItem nested)
      return some (.subscript e (first :: more))
    else return none) e

/-- An operand with what stands behind it; `fuel` bounds the nesting of targets in brackets. -/
def postfixedAt (nested : Nested) : Nat → Postfix
  | 0, _ => failure
  | fuel + 1, f => do
    let e ← atom nested (postfixedAt nested fuel) f
    trailers nested (postfixedAt nested fuel) f e

/-- An operand with the fields, indices and arguments behind it. -/
def postfixed (nested : Nested) : Postfix := fun f => do
  postfixedAt nested ((← get).rest.length + 1) f

/-- Words that go on with an expression behind a complete operand. -/
def continuingWords : List String := ["if", "and", "or", "in", "is", "not", "as", "else", "for"]

/-- An operand of an arithmetic operator: signs and `await` may stand in front of it. -/
def operand (nested : Nested) (f : Follow) : Parser Expr := do
  let e := Expect.operand
  if ← symbol? e "-" <||> symbol? e "+" <||> symbol? e "~" then
    return .compound [← nested _ (.operand f)]
  else if ← symbol? e "*" ["**"] then
    match (← postfixed nested f).star? with
    | some e => return e
    | none => failure
  else if ← atWord e "await" then
    let before ← get
    discard (name e)
    let continues := (← wordAhead f.orOperand).any fun w => continuingWords.contains w.text
    if (← operand? f.orOperand) && !continues then
      return .compound [← nested _ (.operand f)]
    else
      set before
      postfixed nested f
  else postfixed nested f

/-! ## Expressions -/

/-- Operands joined by operators. -/
def operands (nested : Nested) (f : Follow) : Parser Expr := do
  let first ← operand nested f
  let more ← collect do
    if ← operator? f then return some (← operand nested f) else return none
  if more.isEmpty then return first else return .compound (first :: more)

/-- A parameter: the name it is listed under, and the expressions in it. -/
structure Parameter where
  listed : Option String
  parts : List Expr

/-- The default value of a parameter. -/
def defaultValue (nested : Nested) (f : Follow) : Parser (List Expr) := do
  if ← symbol? f.after "=" ["=="] then
    return [← nested _ (.expression f)]
  else return []

/-- The hint of a parameter, if parameters have any. -/
def parameterHint (nested : Nested) (annotated : Bool) (f : Follow) :
    Parser (Option (List Expr)) := do
  if ← pure annotated <&&> symbol? f.after ":" then
    return some (← nested _ (.hint f))
  else return none

/-- A parameter.  One that collects arguments is listed under what follows its stars; patterns in
parentheses are listed only if they have a default value. -/
def parameter (nested : Nested) (annotated : Bool) (f : Follow) : Parser Parameter := do
  let e := f.after
  let double ← symbol? e "**"
  let single ← if double then pure false else symbol? e "*"
  if double || single then
    let a ← ahead (if single then f.orOperand else .operand)
    let placed ← do
      match a.next with
      | .code c => pure (isNameStart c || c == '(' || c == '[')
      | .text => pure true
      | _ => pure false
    if placed then
      set a.place
      let (target, text) ← spanned .operand (postfixed nested f)
      if !target.isPlace then failure
      let hint ← parameterHint nested annotated f
      return ⟨some (a.extras.headD text), target :: hint.getD []⟩
    else if single then return ⟨none, []⟩
    else failure
  else if ← symbol? e "/" then return ⟨none, []⟩
  else if startsWith "(" [] (← codeAhead e) then
    let (target, text) ← spanned e do
      symbol e "("
      sequence nested (postfixed nested) ")"
    if !target.isTarget then failure
    let value ← defaultValue nested f
    return ⟨if value.isEmpty then none else some text, target :: value⟩
  else
    let n ← name e
    match ← parameterHint nested annotated f with
    | some hint =>
      return ⟨some n.text, hint ++ (← defaultValue nested f)⟩
    | none => return ⟨some n.text, ← defaultValue nested f⟩

/-- Parameters up to a closing symbol; a comma may stand behind the last one. -/
def parameters (nested : Nested) (annotated : Bool) (f : Follow) (close : String) :
    Parser (List Parameter) := do
  if ← symbol? f.after close then return []
  let first ← parameter nested annotated f
  let more ← collect do
    if ← symbol? f.after "," then
      if startsWith close [] (← codeAhead f.after) then return some none
      else return some (some (← parameter nested annotated f))
    else return none
  symbol f.after close
  return first :: more.reduceOption

/-- A function expression after its first word. -/
def lambda (nested : Nested) (f : Follow) : Parser Expr := do
  let params ← parameters nested false .inner ":"
  let body ← nested _ (.expression { f with condition := false })
  return .compound (params.flatMap Parameter.parts ++ [body])

/-- An expression that no `and`, `or`, `as` or condition continues. -/
def term (nested : Nested) (f : Follow) : Parser Expr := do
  let e := Expect.operand
  if ← word? e "not" then
    return .compound [← nested _ (.term f)]
  else if ← word? e "lambda" then lambda nested f
  else
    let before ← get
    match ← wordAhead e with
    | some n =>
      if operandKeywords.contains n.text then operands nested f
      else
        discard (name e)
        if ← symbol? f.after ":=" then
          return .compound [.name n, ← nested _ (.expression f)]
        else
          set before
          operands nested f
    | none => operands nested f

/-- An expression. -/
def expression (nested : Nested) (f : Follow) : Parser Expr := do
  let first ← term nested f
  let more ← collect do
    if ← word? f.after "and" <||> word? f.after "or" <||> word? f.after "as" then
      return some (← term nested f)
    else return none
  let choice ← do
    if f.condition then pure []
    else if ← word? f.after "if" then
      let condition ← nested _ (.expression .inner)
      word .plain "else"
      pure [condition, ← nested _ (.expression f)]
    else pure []
  if more.isEmpty && choice.isEmpty then return first
  else return .compound (first :: more ++ choice)

/-! ## Type hints -/

/-- A type hint: an expression, a name marked with stars, or a name with types in brackets. -/
def hint (nested : Nested) (f : Follow) : Parser (List Expr) := do
  let starredName : Parser (List Expr) := do
    if ← symbol? .operand "**" <||> symbol? .operand "*" then
      discard (name .plain)
      return []
    else failure
  let parametrised : Parser (List Expr) := do
    discard (name .operand)
    symbol .plain "["
    let item : Parser (List Expr) := nested _ (.hint .bracketed)
    let first ← item
    let more ← moreItems "]" item
    return first ++ more.flatten
  let first ← (do return [← nested _ (.expression f)]) <|> starredName <|> parametrised
  let more ← collect do
    if ← symbol? f.after "|" ["|="] then
      return some (← nested _ (.hint f))
    else if ← symbol? f.after "." then
      discard (name .plain)
      return some []
    else return none
  return first ++ more.flatten

/-- A replacement field after its opening brace. -/
def replacementField (nested : Nested) : Parser (List Expr) := do
  let f := Follow.bracketed
  let items ← do
    if ← word? .operand "yield" then pure [← yielded nested f]
    else expressionList nested f
  discard (symbol? f.after "=" ["=="])
  conversionMark f.after
  let format ← do
    if ← symbol? f.after ":" then
      formatTail nested ((← get).rest.length + 1) []
    else pure []
  symbol f.after "\x7d"
  return items ++ format

end Recast.Python
