/-
  Table.lean --- finite tables in the order of their keys.

  A table holds at most one value for a key and lists its entries in strictly ascending key order.
  The two laws that its users need are at the end: what a look-up finds after an entry was put
  (`get?_insert`) and after one was taken away (`get?_erase`).
-/
import Recast.Instances

set_option autoImplicit false

namespace Recast

/-- A finite table whose entries are in strictly ascending order of their keys. -/
structure Table (κ α : Type) [LT κ] where
  entries : List (κ × α)
  ascending : entries.Pairwise (fun a b => a.1 < b.1)

/-- A finite set in ascending order. -/
abbrev Table.Keys (κ : Type) [LT κ] := Table κ Unit

namespace Table

variable {κ α β : Type} [LE κ] [LT κ] [Std.IsLinearOrder κ] [Std.LawfulOrderLT κ] [DecidableLT κ]

/-- A table without entries. -/
def empty : Table κ α := ⟨[], .nil⟩

instance : EmptyCollection (Table κ α) := ⟨empty⟩
instance : Inhabited (Table κ α) := ⟨empty⟩

/-- The entries with one more, which replaces that of the same key. -/
def put (k : κ) (v : α) : List (κ × α) → List (κ × α)
  | [] => [(k, v)]
  | e :: rest =>
    if k < e.1 then (k, v) :: e :: rest
    else if e.1 < k then e :: put k v rest
    else (k, v) :: rest

omit [LE κ] [Std.IsLinearOrder κ] [Std.LawfulOrderLT κ] in
theorem mem_put {k : κ} {v : α} {es : List (κ × α)} {x : κ × α} (h : x ∈ put k v es) :
    x = (k, v) ∨ x ∈ es := by
  induction es with
  | nil => simpa [put] using h
  | cons e rest ih =>
    unfold put at h
    split at h
    · simpa using h
    · split at h
      · rcases List.mem_cons.1 h with h | h
        · simp [h]
        · rcases ih h with h | h <;> simp [h]
      · rcases List.mem_cons.1 h with h | h <;> simp [h]

omit [DecidableLT κ] in
/-- Two keys neither of which is below the other are equal. -/
theorem eq_of_not_lt {a b : κ} (h : ¬a < b) (h' : ¬b < a) : a = b :=
  Std.le_antisymm (Std.not_lt.1 h') (Std.not_lt.1 h)

theorem ascending_put (k : κ) (v : α) {es : List (κ × α)}
    (h : es.Pairwise (fun a b => a.1 < b.1)) : (put k v es).Pairwise (fun a b => a.1 < b.1) := by
  induction es with
  | nil => simp [put]
  | cons e rest ih =>
    rw [List.pairwise_cons] at h
    unfold put
    split
    · next hk =>
      refine List.pairwise_cons.2 ⟨?_, List.pairwise_cons.2 h⟩
      intro x hx
      rcases List.mem_cons.1 hx with rfl | hx
      · exact hk
      · exact Std.lt_trans hk (h.1 x hx)
    · split
      · next hk =>
        refine List.pairwise_cons.2 ⟨?_, ih h.2⟩
        intro x hx
        rcases mem_put hx with rfl | hx
        · exact hk
        · exact h.1 x hx
      · next hk hk' =>
        have : k = e.1 := eq_of_not_lt hk hk'
        subst this
        exact List.pairwise_cons.2 ⟨h.1, h.2⟩

/-- The table with one more entry, which replaces that of the same key. -/
def insert (k : κ) (v : α) (t : Table κ α) : Table κ α :=
  ⟨put k v t.entries, ascending_put k v t.ascending⟩

/-- The table of the entries of a list; of two with the same key the later one counts. -/
def ofList (es : List (κ × α)) : Table κ α :=
  es.foldl (fun t e => t.insert e.1 e.2) empty

/-- The set of the items of a list. -/
def Keys.ofList (ks : List κ) : Keys κ := Table.ofList (ks.map fun k => (k, ()))

variable [DecidableEq κ]

/-- The value of a key. -/
def get? (t : Table κ α) (k : κ) : Option α :=
  (t.entries.find? fun e => e.1 = k).map (·.2)

/-- Whether the table has an entry for a key. -/
def contains (t : Table κ α) (k : κ) : Bool := (t.get? k).isSome

/-- The entries that a condition keeps. -/
def filter (keep : κ → α → Bool) (t : Table κ α) : Table κ α :=
  ⟨t.entries.filter fun e => keep e.1 e.2, t.ascending.filter _⟩

/-- The table without the entry of a key. -/
def erase (k : κ) (t : Table κ α) : Table κ α := t.filter fun k' _ => k' ≠ k

/-- The table with other values. -/
def map (f : α → β) (t : Table κ α) : Table κ β :=
  ⟨t.entries.map fun e => (e.1, f e.2), by
    simpa [List.pairwise_map] using t.ascending⟩

/-- The keys in ascending order. -/
def keys (t : Table κ α) : List κ := t.entries.map (·.1)

/-- The values in the order of their keys. -/
def values (t : Table κ α) : List α := t.entries.map (·.2)

/-- The number of entries. -/
def size (t : Table κ α) : Nat := t.entries.length

/-- The table with the value of a key changed; an absent one is made first. -/
def update (k : κ) (fresh : α) (f : α → α) (t : Table κ α) : Table κ α :=
  t.insert k (f ((t.get? k).getD fresh))

/-! ## Laws -/

omit [LE κ] [Std.IsLinearOrder κ] [Std.LawfulOrderLT κ] [DecidableLT κ] in
@[simp] theorem get?_filter_ne (t : Table κ α) (k k' : κ) :
    ((t.entries.filter fun e => decide (e.1 ≠ k)).find? fun e => e.1 = k') =
      if k' = k then none else t.entries.find? fun e => e.1 = k' := by
  induction t.entries with
  | nil => simp
  | cons e rest ih =>
    by_cases h : e.1 = k <;> by_cases h' : e.1 = k' <;> by_cases h'' : k' = k <;>
      simp_all

omit [LE κ] [Std.IsLinearOrder κ] [Std.LawfulOrderLT κ] [DecidableLT κ] in
/-- A look-up after an entry was taken away. -/
theorem get?_erase (t : Table κ α) (k k' : κ) :
    (t.erase k).get? k' = if k' = k then none else t.get? k' := by
  simp only [get?, erase, filter, get?_filter_ne]
  split <;> simp

omit [Std.LawfulOrderLT κ] [Std.IsLinearOrder κ] [LE κ] [DecidableLT κ] in
theorem find?_none_of_below {es : List (κ × α)} {k : κ} [Std.Irrefl (α := κ) (· < ·)]
    (h : ∀ e ∈ es, k < e.1) : es.find? (fun e => e.1 = k) = none := by
  rw [List.find?_eq_none]
  intro e he
  have := h e he
  simp only [decide_eq_true_eq]
  intro heq
  rw [heq] at this
  exact Std.Irrefl.irrefl _ this

theorem find?_put (k k' : κ) (v : α) {es : List (κ × α)}
    (h : es.Pairwise (fun a b => a.1 < b.1)) :
    ((put k v es).find? fun e => e.1 = k') =
      if k' = k then some (k, v) else es.find? fun e => e.1 = k' := by
  induction es with
  | nil => by_cases h : k' = k <;> simp_all [put, eq_comm]
  | cons e rest ih =>
    rw [List.pairwise_cons] at h
    unfold put
    split
    · by_cases hk : k' = k <;> simp_all [List.find?_cons, eq_comm]
    · split
      · next hlt =>
        have hne : e.1 ≠ k := fun heq => by rw [heq] at hlt; exact Std.lt_irrefl hlt
        by_cases hk : k' = k
        · subst hk; simp [hne, ih h.2]
        · simp [List.find?_cons, ih h.2, hk]
      · next hk hk' =>
        have : k = e.1 := eq_of_not_lt hk hk'
        by_cases hk : k' = k <;> simp_all [eq_comm]

/-- A look-up after an entry was put. -/
theorem get?_insert (t : Table κ α) (k k' : κ) (v : α) :
    (t.insert k v).get? k' = if k' = k then some v else t.get? k' := by
  simp only [get?, insert, find?_put k k' v t.ascending]
  split <;> simp

end Table

end Recast
