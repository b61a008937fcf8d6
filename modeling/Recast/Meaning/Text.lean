/-
  Meaning/Text.lean --- what a file and its declarations are about, in a sentence each.
-/
import Recast.Outline.Basic
import Recast.Text.Blank
import Recast.Text.Case

set_option autoImplicit false

namespace Recast.Meaning

/-- Business domains with the keywords that reveal them, in the order in which they are tried. -/
def domains : List (List String × String) :=
  [(["invoice", "sales", "purchase"], "Invoice processing"),
   (["ledger", "journal", "entry"], "Ledger management"),
   (["tax", "vat", "gst"], "Tax calculation"),
   (["party", "customer", "supplier"], "Party management"),
   (["payment", "receipt"], "Payment handling")]

/-- The domain of a file that reveals none. -/
def defaultDomain : String := "Accounting utility"

/-- What a function does, by how its name begins. -/
def functionPurposes : List (String × String) :=
  [("get_", "Retrieves data"), ("set_", "Sets data"), ("validate_", "Validates business rules"),
   ("calculate_", "Performs calculations"), ("make_", "Creates entries"),
   ("update_", "Updates records"), ("delete_", "Deletes records")]

/-- What a class is for, by a word in its name. -/
def classPurposes : List (String × String) :=
  [("service", "Service layer for business logic"),
   ("controller", "Controller for request handling"),
   ("manager", "Manager for coordinating operations"),
   ("validator", "Validator for business rules")]

/-- The domain of a file: that of the first keyword in its name, its documentation or its imports.
-/
def domain (stem : String) (o : Outline) : String :=
  let texts :=
    Text.lower stem.toList :: (o.doc.toList ++ o.imports).map fun s => Text.lower s.toList
  let text := [' '].intercalate texts
  match domains.find? fun (keywords, _) => keywords.any fun k => Text.hasPart k.toList text with
  | some (_, d) => d
  | none => defaultDomain

/-- The purpose of a function with a name. -/
def functionPurpose (name : String) : String :=
  let low := Text.lower name.toList
  match functionPurposes.find? fun (start, _) => start.toList.isPrefixOf low with
  | some (_, purpose) => purpose
  | none => "Performs business logic"

/-- The purpose of a class with a name. -/
def classPurpose (name : String) : String :=
  let low := Text.lower name.toList
  match classPurposes.find? fun (word, _) => Text.hasPart word.toList low with
  | some (_, purpose) => purpose
  | none => "Data model or utility class"

/-- The first characters of a text whose runs of blanks are single spaces. -/
def shortened (text : String) (limit : Nat) : List Char :=
  let words := (Text.splitAtClass Text.isBlank text.toList).filter (!·.isEmpty)
  ([' '].intercalate words).take limit

/-- What a file is about. -/
def ofFile (stem : String) (o : Outline) : String :=
  let about := match o.doc with
    | some doc => String.ofList (Text.dropEnd (· == '.') (shortened doc 100)) ++ ". "
    | none => ""
  "File " ++ stem ++ ": " ++ domain stem o ++ ". " ++ about ++ "Contains " ++
    toString o.functions.length ++ " functions and " ++ toString o.classes.length ++ " classes."

/-- A purpose: the beginning of the documentation, or else what the name says. -/
def purposeOr (doc : Option String) (purpose : String) : String :=
  match doc with
  | some doc => String.ofList (shortened doc 150)
  | none => purpose

/-- What a function is about. -/
def ofFunction (f : FunctionDecl) : String :=
  "Function " ++ f.name ++ "(" ++ ", ".intercalate f.params ++ "): " ++
    purposeOr f.doc (functionPurpose f.name)

/-- What a class is about. -/
def ofClass (c : ClassDecl) : String :=
  "Class " ++ c.name ++ ": " ++ purposeOr c.doc (classPurpose c.name) ++ " Contains " ++
    toString c.methods.length ++ " methods."

/-- Whether an imported name is a module or comes from it. -/
def comesFrom (module name : String) : Bool :=
  let absolute := Outline.absoluteImport name
  absolute == module.toList || (module.toList ++ ['.']).isPrefixOf absolute

/-- How a file depends on the modules it imports from, one sentence for each. -/
def relations (stem : String) (o : Outline) : List (String × String) :=
  o.importedModules.map fun module =>
    (module, "Dependency from " ++ stem ++ " to " ++ module ++ ": uses " ++
      ", ".intercalate (o.imports.filter (comesFrom module)))

end Recast.Meaning
