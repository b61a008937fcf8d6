/-
  Toml/Document.lean --- reading a TOML text as one table.

  A table is defined once: by its header, by dotted keys, or by being on the way to another table,
  in which case a header may still define it.  A name is given once.  What stands in brackets or
  braces behind an equals sign is complete and cannot be extended.
-/
import Recast.Toml.Scalar

set_option autoImplicit false

namespace Recast.Toml

/-! ### Tables that are being defined -/

/-- How a table came to be. -/
inductive Origin where
  /-- It is on the way to a table with a header. -/
  | implied
  /-- It has a header of its own. -/
  | headed
  /-- It is on the way of a dotted key. -/
  | dotted
  deriving DecidableEq

/-- What a name stands for. -/
inductive Node where
  /-- A complete value. -/
  | leaf (value : Json)
  /-- A table. -/
  | table (origin : Origin) (members : List (String × Node))
  /-- A list of tables, the last of which is not complete. -/
  | tables (complete : List Json) (members : List (String × Node))

/-- The names of a table and what they stand for. -/
abbrev Members := List (String × Node)

mutual

/-- The value of what a name stands for. -/
def Node.toJson : Node → Json
  | .leaf v => v
  | .table _ ms => .object (membersToJson ms)
  | .tables complete ms => .array (complete ++ [.object (membersToJson ms)])

/-- The members of the value of a table. -/
def membersToJson : List (String × Node) → List (String × Json)
  | [] => []
  | (name, n) :: ms => (name, n.toJson) :: membersToJson ms

end

/-- A table with what a name stands for changed. -/
def alter (name : String) (f : Option Node → Option Node) : Members → Option Members
  | [] => (f none).map fun n => [(name, n)]
  | (k, n) :: ms =>
    if k = name then (f (some n)).map fun n => (k, n) :: ms
    else (alter name f ms).map ((k, n) :: ·)

/-- A table with the table at the end of a path changed.  `dotted` tells whether the path belongs to
a dotted key; `f` is told whether the table at the end was defined by one. -/
def alterAt (dotted : Bool) (f : Bool → Members → Option Members) :
    List String → Bool → Members → Option Members
  | [], byKey, ms => f byKey ms
  | name :: path, _, ms => alter name (fun
    | none => (alterAt dotted f path dotted []).map
        (.table (if dotted then .dotted else .implied))
    | some (.leaf _) => none
    | some (.table origin ms) =>
      if dotted && origin == .headed then none
      else (alterAt dotted f path (origin == .dotted) ms).map (.table origin)
    | some (.tables complete ms) => (alterAt dotted f path false ms).map (.tables complete)) ms

/-- A table with a value for a dotted key. -/
def define (path : List String) (name : String) (v : Json) (ms : Members) : Option Members :=
  alterAt true (fun byKey ms =>
    if byKey == path.isEmpty then none
    else alter name (fun
      | none => some (.leaf v)
      | some _ => none) ms) path false ms

/-- The root table with the table of a header. -/
def openTable (path : List String) (name : String) (root : Members) : Option Members :=
  alterAt false (fun _ ms => alter name (fun
    | none => some (.table .headed [])
    | some (.table .implied ms) => some (.table .headed ms)
    | some _ => none) ms) path false root

/-- The root table with one more table of a list of tables. -/
def openItem (path : List String) (name : String) (root : Members) : Option Members :=
  alterAt false (fun _ ms => alter name (fun
    | none => some (.tables [] [])
    | some (.tables complete ms) => some (.tables (complete ++ [.object (membersToJson ms)]) [])
    | some _ => none) ms) path false root

/-! ### Keys and values -/

/-- Whether a character may stand in a key without quotes. -/
def isKeyChar (c : Char) : Bool := c.isAlphanum || c == '_' || c == '-'

/-- A key without dots. -/
def simpleKey (cs : List Char) : Option (String × List Char) :=
  match cs.takeWhile isKeyChar with
  | [] => lineString cs
  | name => some (String.ofList name, cs.dropWhile isKeyChar)

/-- A key, as the names in front of its last one and its last name. -/
def key : Nat → Step (List String × String)
  | 0, _ => none
  | fuel + 1, cs =>
    match simpleKey (skipBlanks cs) with
    | none => none
    | some (name, rest) =>
      match skipBlanks rest with
      | '.' :: rest => (key fuel rest).map fun ((path, last), rest) => ((name :: path, last), rest)
      | rest => some (([], name), rest)

/-- A key, an equals sign and a value, which is put into a table. -/
def definition (value : Step Json) (ms : Members) (cs : List Char) :
    Option (Members × List Char) := do
  let ((path, name), rest) ← key cs.length cs
  let (v, rest) ← value (skipBlanks (← mark '=' rest))
  return (← define path name v ms, rest)

/-- The rest of an array. -/
def arrayTail (value : Step Json) : Nat → List Json → Step (List Json)
  | 0, _, _ => none
  | fuel + 1, read, cs =>
    match skipGap false cs with
    | none => none
    | some (']' :: rest) => some (read.reverse, rest)
    | some cs =>
      match value cs with
      | none => none
      | some (v, rest) =>
        match skipGap false rest with
        | some (',' :: rest) => arrayTail value fuel (v :: read) rest
        | some (']' :: rest) => some ((v :: read).reverse, rest)
        | _ => none

/-- The rest of a table in braces that has at least one more definition. -/
def inlineTail (value : Step Json) : Nat → Members → Step Members
  | 0, _, _ => none
  | fuel + 1, ms, cs =>
    match definition value ms (skipBlanks cs) with
    | none => none
    | some (ms, rest) =>
      match skipBlanks rest with
      | ',' :: rest => inlineTail value fuel ms rest
      | '}' :: rest => some (ms, rest)
      | _ => none

/-- A value with a nesting of at most the given depth. -/
def value : Nat → Step Json
  | 0, _ => none
  | depth + 1, cs =>
    match cs with
    | '[' :: rest =>
      (arrayTail (value depth) cs.length [] rest).map fun (xs, rest) => (.array xs, rest)
    | '{' :: rest =>
      match skipBlanks rest with
      | '}' :: rest => some (.object [], rest)
      | rest => (inlineTail (value depth) cs.length [] rest).map fun (ms, rest) =>
          (.object (membersToJson ms), rest)
    | '"' :: _ => (string cs).map fun (s, rest) => (.string s, rest)
    | '\'' :: _ => (string cs).map fun (s, rest) => (.string s, rest)
    | cs => scalar cs

/-- How deep values may nest. -/
def maxDepth : Nat := 80

/-! ### The text -/

/-- A header in one or two brackets, after the opening ones. -/
def header (close : List Char) (cs : List Char) : Option ((List String × String) × List Char) := do
  let (name, rest) ← key cs.length cs
  return (name, ← lineEnd? (← Text.stripStart? close rest))

/-- The root table after the lines of a text, the definitions of which belong to the table at a
path. -/
def lines : Nat → List String → Members → List Char → Option Members
  | 0, _, _, _ => none
  | fuel + 1, here, root, cs =>
    match skipGap false cs with
    | none => none
    | some [] => some root
    | some ('[' :: '[' :: rest) => do
      let ((path, name), rest) ← header [']', ']'] rest
      lines fuel (path ++ [name]) (← openItem path name root) rest
    | some ('[' :: rest) => do
      let ((path, name), rest) ← header [']'] rest
      lines fuel (path ++ [name]) (← openTable path name root) rest
    | some cs => do
      let ((path, name), rest) ← key cs.length cs
      let (v, rest) ← value maxDepth (skipBlanks (← mark '=' rest))
      let root ← alterAt false (fun _ ms => define path name v ms) here false root
      lines fuel here root (← lineEnd? rest)

/-- The table that a text writes. -/
def parse? (text : String) : Option Json :=
  let cs := match text.toList with
    | c :: cs => if c.toNat = 0xFEFF then cs else c :: cs
    | [] => []
  (lines (cs.length + 1) [] [] cs).map fun root => .object (membersToJson root)

end Recast.Toml
