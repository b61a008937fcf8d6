/-
  Python/Pattern.lean --- the patterns of `case` clauses.

  Reading a pattern answers the expressions in it, which only stand in the replacement fields of
  its strings.
-/
import Recast.Python.Expression

set_option autoImplicit false

namespace Recast.Python

open Recast.Python.Parser

/-- What may stand behind a pattern inside or outside brackets: closing brackets are admitted. -/
def Expect.patternEnd : Expect := { close := true }

/-- A dotted name. -/
def dottedName (e : Expect) : Parser Unit := do
  discard (name e)
  discard <| collect do
    if ← symbol? .plain "." then return some (← name .plain) else return none

/-- Patterns up to a closing bracket; a comma may stand behind the last one. -/
def patternItems (item : Parser (List Expr)) (close : String) : Parser (List Expr) := do
  let e := Follow.bracketed.orOperand
  if ← symbol? e close then return []
  approach e
  let first ← item
  let more ← collect do
    if ← symbol? .patternEnd "," then
      if startsWith close [] (← codeAhead e) then return some []
      approach e
      return some (← item)
    else return none
  symbol .patternEnd close
  return first ++ more.flatten

/-- A number, with an optional sign in front and an optional imaginary part behind it. -/
def numberPattern : Parser (List Expr) := do
  let number : Parser Unit := do
    let a ← ahead .operand
    match number? a.place.rest with
    | some rest => set (a.place.moveTo rest)
    | none => failure
  discard (symbol? .operand "-")
  number
  if ← symbol? .patternEnd "+" <||> symbol? .patternEnd "-" then number
  return []

/-- A name with stars in front of it. -/
def starPattern : Parser (List Expr) := do
  if ← symbol? .operand "**" <||> symbol? .operand "*" then
    discard (name .plain)
    return []
  else failure

/-- A pattern without alternatives. -/
def closedPattern (nested : Nested) : Parser (List Expr) := do
  let e := Expect.operand
  let item : Parser (List Expr) := nested _ .pattern
  let a ← ahead e
  match a.next with
  | .text => return [← textLiterals nested e .bracketed]
  | .code c =>
    if c == '[' then
      symbol e "["
      patternItems item "]"
    else if c == '(' then
      symbol e "("
      patternItems item ")"
    else if c == '\x7b' then
      symbol e "\x7b"
      let entry : Parser (List Expr) := do
        if startsWith "*" [] (← codeAhead e) then starPattern
        else
          let key ← item
          symbol .plain ":"
          return key ++ (← item)
      patternItems entry "\x7d"
    else if c == '*' then starPattern
    else if c == '-' || (number? a.place.rest).isSome then numberPattern
    else
      let constant := (← wordAhead e).any fun n => ["True", "False", "None"].contains n.text
      if constant then
        discard (name e)
        return []
      dottedName e
      if ← symbol? .patternEnd "(" then patternItems item ")"
      else if ← symbol? .patternEnd "=" ["=="] then item
      else return []
  | _ => failure

/-- A pattern: alternatives, and names for what they match. -/
def pattern (nested : Nested) : Parser (List Expr) := do
  let first ← closedPattern nested
  let more ← collect do
    if ← symbol? .patternEnd "|" then return some (← closedPattern nested)
    else if ← word? .patternEnd "as" then
      discard (name .plain)
      return some []
    else return none
  return first ++ more.flatten

end Recast.Python
