/-
  Assessment/Merge.lean --- adding up entries that belong together.

  Entries are told apart by named fields and carry named amounts.  Those with equal fields become
  one entry with the sums of the amounts, in ascending order of the fields; entries that are to stay
  separate follow as they came.  Amounts are whole numbers of 64 bits: a sum that is out of range
  wraps around.
-/
import Recast.Table

set_option autoImplicit false

namespace Recast.Assessment

/-- An entry. -/
structure Entry where
  fields : Table String String := ∅
  amounts : Table String Int := ∅
  /-- Whether the entry stays separate. -/
  separate : Bool := false

namespace Entry

/-- The fields and their values in ascending order, as one list to compare by. -/
def key (e : Entry) : List String := e.fields.entries.flatMap fun (name, v) => [name, v]

/-- Amounts with one more added to that of its name, in 64 bits. -/
def addAmount (amounts : Table String Int) (amount : String × Int) : Table String Int :=
  amounts.update amount.1 0 fun sum => (sum + amount.2).bmod (2 ^ 64)

/-- An entry with the amounts of another one added. -/
def absorb (e other : Entry) : Entry :=
  { e with amounts := other.amounts.entries.foldl addAmount e.amounts }

/-- The entries by their fields, with one more. -/
def collectInto (merged : Table (List String) Entry) (e : Entry) : Table (List String) Entry :=
  match merged.get? e.key with
  | some existing => merged.insert e.key (existing.absorb e)
  | none => merged.insert e.key e

/-- Adds up the entries that belong together. -/
def merge (entries : List Entry) : List Entry :=
  ((entries.filter (!·.separate)).foldl collectInto ∅).values ++ entries.filter (·.separate)

end Entry

end Recast.Assessment
