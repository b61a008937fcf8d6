/-
  Proofs/Assessment/Merge.lean --- what becomes of entries that are added up.

  Entries with the same fields that are not to stay separate form a group (`group`).  The sums of a
  list are one entry for each group with the totals of its amounts, in the order of the fields
  (`Sums`), and a list has only one list of sums (`Sums.unique`).  Adding up gives them wherever 64
  bits hold all the totals (`sums_summed`).  So lists whose groups have the same totals are added up
  alike (`merge_congr`), such as lists in another order (`merge_perm`) and batches
  (`merge_merge_append`).
-/
import Mathlib.Algebra.Order.BigOperators.Group.List
import Mathlib.Algebra.Order.Group.Nat
import Mathlib.Algebra.Order.Ring.Int
import Mathlib.Data.List.Sort
import Recast.Assessment.Merge
import Recast.Proofs.Table

set_option autoImplicit false

namespace Recast.Assessment.Entry

/-! ## Groups and their totals -/

/-- The sum of some amounts, if there are any. -/
def total : List Int → Option Int
  | [] => none
  | ns => some ns.sum

/-- The amounts that entries have under a name. -/
def amountsOf (name : String) (entries : List Entry) : List Int :=
  entries.filterMap (·.amounts.get? name)

/-- The entries with some fields that do not stay separate. -/
def group (fields : Table String String) (entries : List Entry) : List Entry :=
  entries.filter fun e => !e.separate && decide (e.fields = fields)

/-- The order of entries by their fields: the first field in which they differ decides, by its name
and then by its value. -/
def Precedes (a b : Entry) : Prop :=
  List.Lex (Prod.Lex (· < ·) (· < ·)) a.fields.entries b.fields.entries

/-- What the sums of a list of entries are: in strictly ascending order one entry for each group, with
the total of each amount that the group has. -/
structure Sums (entries sums : List Entry) : Prop where
  together : ∀ e ∈ sums, e.separate = false
  ascending : sums.Pairwise Precedes
  groups : ∀ fields, (∃ e ∈ sums, e.fields = fields) ↔ group fields entries ≠ []
  totals : ∀ e ∈ sums, ∀ name,
    e.amounts.get? name = total (amountsOf name (group e.fields entries))

/-- Entries of which no group has amounts of a name that, all taken as positive, add up to more than
64 bits hold. -/
def Bounded (entries : List Entry) : Prop :=
  ∀ fields name, ((amountsOf name (group fields entries)).map Int.natAbs).sum < 2 ^ 63

/-! ## Fields -/

/-- The list that entries are compared by puts them in the order of their fields. -/
theorem key_lt_iff {a b : Entry} : a.key < b.key ↔ a.Precedes b := by
  have hflat (xs ys : List (String × String)) :
      (xs.flatMap fun field => [field.1, field.2]) <
          (ys.flatMap fun field => [field.1, field.2]) ↔
        List.Lex (Prod.Lex (· < ·) (· < ·)) xs ys := by
    induction xs generalizing ys with
    | nil => cases ys <;> simp
    | cons x xs ih =>
      cases ys with
      | nil => simp
      | cons y ys =>
        simp only [List.flatMap_cons, List.cons_append, List.nil_append, List.cons_lt_cons_iff, ih,
          List.cons_lex_cons_iff, Prod.lex_def, Prod.ext_iff]
        tauto
  exact hflat _ _

/-- Entries are compared by their fields alone, and by all of them. -/
theorem key_eq_iff {a b : Entry} : a.key = b.key ↔ a.fields = b.fields := by
  have hflat (xs ys : List (String × String))
      (h : (xs.flatMap fun field => [field.1, field.2]) =
        ys.flatMap fun field => [field.1, field.2]) : xs = ys := by
    induction xs generalizing ys with
    | nil => cases ys <;> simp_all
    | cons x xs ih =>
      cases ys with
      | nil => simp at h
      | cons y ys =>
        simp only [List.flatMap_cons, List.cons_append, List.nil_append, List.cons.injEq] at h
        rw [Prod.ext h.1 h.2.1, ih ys h.2.2]
  refine ⟨fun h => Table.ext (hflat _ _ h), fun h => ?_⟩
  rw [key, key, h]

/-! ## Totals -/

theorem total_append (ns ms : List Int) : total ((total ns).toList ++ ms) = total (ns ++ ms) := by
  cases ns with
  | nil => rfl
  | cons n ns => simp [total, add_assoc]

theorem natAbs_sum_le (ns : List Int) : ns.sum.natAbs ≤ (ns.map Int.natAbs).sum := by
  induction ns with
  | nil => rfl
  | cons n ns ih =>
    rw [List.sum_cons, List.map_cons, List.sum_cons]
    exact (Int.natAbs_add_le n ns.sum).trans (Nat.add_le_add_left ih _)

theorem natAbs_total_le (ns : List Int) :
    ((total ns).toList.map Int.natAbs).sum ≤ (ns.map Int.natAbs).sum := by
  cases ns with
  | nil => exact Nat.le_refl _
  | cons n ns => simpa [total] using natAbs_sum_le (n :: ns)

/-- A number that 64 bits hold is left as it is. -/
theorem bmod_of_natAbs_lt {n : Int} (h : n.natAbs < 2 ^ 63) : n.bmod (2 ^ 64) = n := by
  apply Int.bmod_eq_of_le <;> omega

theorem amountsOf_append (name : String) (es fs : List Entry) :
    amountsOf name (es ++ fs) = amountsOf name es ++ amountsOf name fs :=
  List.filterMap_append

theorem amountsOf_singleton (name : String) (e : Entry) :
    amountsOf name [e] = (e.amounts.get? name).toList := by
  cases h : e.amounts.get? name <;> simp [amountsOf, h]

/-! ## Adding one entry to another -/

theorem get?_addAmount (amounts : Table String Int) (amount : String × Int) (name : String) :
    (addAmount amounts amount).get? name =
      if name = amount.1 then some (((amounts.get? name).getD 0 + amount.2).bmod (2 ^ 64))
      else amounts.get? name := by
  rw [addAmount, Table.get?_update]
  split
  · next h => rw [h]
  · rfl

/-- Of amounts with different names the one with the name is added. -/
theorem get?_foldl_addAmount {added : List (String × Int)}
    (h : added.Pairwise fun a b => a.1 < b.1) (amounts : Table String Int) (name : String) :
    (added.foldl addAmount amounts).get? name =
      ((added.find? fun a => a.1 = name).map (·.2)).elim (amounts.get? name) fun n =>
        some (((amounts.get? name).getD 0 + n).bmod (2 ^ 64)) := by
  induction added generalizing amounts with
  | nil => rfl
  | cons a added ih =>
    rw [List.pairwise_cons] at h
    rw [List.foldl_cons, ih h.2, get?_addAmount]
    by_cases ha : a.1 = name
    · have hlater : added.find? (fun b => b.1 = name) = none :=
        Table.find?_none_of_below (ha ▸ h.1)
      rw [hlater, List.find?_cons_of_pos (by simpa using ha), if_pos ha.symm]
      rfl
    · rw [List.find?_cons_of_neg (by simpa using ha), if_neg (Ne.symm ha)]

theorem get?_absorb (e other : Entry) (name : String) :
    (e.absorb other).amounts.get? name =
      (other.amounts.get? name).elim (e.amounts.get? name) fun n =>
        some (((e.amounts.get? name).getD 0 + n).bmod (2 ^ 64)) :=
  get?_foldl_addAmount other.amounts.ascending e.amounts name

/-- An amount of two entries together is the total of the amounts that they have. -/
theorem get?_absorb_eq_total {e other : Entry} {name : String}
    (h : ((amountsOf name [e, other]).map Int.natAbs).sum < 2 ^ 63) :
    (e.absorb other).amounts.get? name = total (amountsOf name [e, other]) := by
  have hpair : amountsOf name [e, other] =
      (e.amounts.get? name).toList ++ (other.amounts.get? name).toList := by
    rw [← amountsOf_singleton, ← amountsOf_singleton, ← amountsOf_append]
    rfl
  rw [get?_absorb]
  rw [hpair] at h ⊢
  cases hother : other.amounts.get? name with
  | none => cases e.amounts.get? name <;> simp [total]
  | some n =>
    have hsum := natAbs_sum_le ((e.amounts.get? name).toList ++ [n])
    rw [hother] at h
    have hexact := bmod_of_natAbs_lt (hsum.trans_lt h)
    cases he : e.amounts.get? name with
    | none => simpa [he, total] using hexact
    | some m => simpa [he, total] using hexact

/-- An amount of entries that are added up is the total of the amounts that they have. -/
theorem get?_foldl_absorb {e : Entry} {rest : List Entry} {name : String}
    (h : ((amountsOf name (e :: rest)).map Int.natAbs).sum < 2 ^ 63) :
    (rest.foldl absorb e).amounts.get? name = total (amountsOf name (e :: rest)) := by
  induction rest generalizing e with
  | nil =>
    rw [List.foldl_nil, amountsOf_singleton]
    cases e.amounts.get? name <;> simp [total]
  | cons other rest ih =>
    have hsplit : amountsOf name (e :: other :: rest) =
        amountsOf name [e, other] ++ amountsOf name rest := amountsOf_append name [e, other] rest
    rw [hsplit, List.map_append, List.sum_append] at h
    have hpair := get?_absorb_eq_total (Nat.lt_of_le_of_lt (Nat.le_add_right _ _) h)
    have hjoined : amountsOf name (e.absorb other :: rest) =
        (total (amountsOf name [e, other])).toList ++ amountsOf name rest := by
      rw [← hpair, ← amountsOf_singleton, ← amountsOf_append]
      rfl
    rw [List.foldl_cons, ih, hjoined, total_append, hsplit]
    rw [hjoined, List.map_append, List.sum_append]
    exact Nat.lt_of_le_of_lt (Nat.add_le_add_right (natAbs_total_le _) _) h

/-! ## Adding up -/

/-- What stands under a key after one more entry with that key. -/
def joined (found : Option Entry) (e : Entry) : Option Entry :=
  some (found.elim e (·.absorb e))

theorem get?_collectInto (merged : Table (List String) Entry) (e : Entry) (key : List String) :
    (collectInto merged e).get? key =
      if key = e.key then joined (merged.get? key) e else merged.get? key := by
  unfold collectInto joined
  split
  · next existing hget =>
    rw [Table.get?_insert]
    split
    · next heq => rw [heq, hget]; rfl
    · rfl
  · next hget =>
    rw [Table.get?_insert]
    split
    · next heq => rw [heq, hget]; rfl
    · rfl

theorem get?_foldl_collectInto (merged : Table (List String) Entry) (entries : List Entry)
    (key : List String) : (entries.foldl collectInto merged).get? key =
      (entries.filter fun e => e.key = key).foldl joined (merged.get? key) := by
  induction entries generalizing merged with
  | nil => rfl
  | cons e entries ih =>
    rw [List.foldl_cons, ih, get?_collectInto]
    by_cases h : e.key = key
    · rw [if_pos h.symm, List.filter_cons_of_pos (by simpa using h), List.foldl_cons]
    · rw [if_neg (Ne.symm h), List.filter_cons_of_neg (by simpa using h)]

theorem foldl_joined_some (e : Entry) (rest : List Entry) :
    rest.foldl joined (some e) = some (rest.foldl absorb e) := by
  induction rest generalizing e with
  | nil => rfl
  | cons other rest ih => exact ih _

@[simp] theorem fields_foldl_absorb (e : Entry) (rest : List Entry) :
    (rest.foldl absorb e).fields = e.fields := by
  induction rest generalizing e with
  | nil => rfl
  | cons other rest ih => exact ih (e.absorb other)

@[simp] theorem separate_foldl_absorb (e : Entry) (rest : List Entry) :
    (rest.foldl absorb e).separate = e.separate := by
  induction rest generalizing e with
  | nil => rfl
  | cons other rest ih => exact ih (e.absorb other)

variable {entries others sums : List Entry} {fields : Table String String}

theorem mem_group {e : Entry} :
    e ∈ group fields entries ↔ e ∈ entries ∧ e.separate = false ∧ e.fields = fields := by
  simp [group]

theorem group_append (fields : Table String String) (es fs : List Entry) :
    group fields (es ++ fs) = group fields es ++ group fields fs :=
  List.filter_append ..

/-- The entries that are added up, by their fields. -/
def summed (entries : List Entry) : Table (List String) Entry :=
  (entries.filter (!·.separate)).foldl collectInto ∅

theorem merge_eq (entries : List Entry) :
    merge entries = (summed entries).values ++ entries.filter (·.separate) := rfl

/-- A group is found by the key of each of its entries. -/
theorem group_eq_filter_key (entries : List Entry) (e : Entry) : group e.fields entries =
    (entries.filter (!·.separate)).filter fun other => other.key = e.key := by
  rw [List.filter_filter, group]
  exact List.filter_congr fun _ _ => by simp [key_eq_iff, Bool.and_comm]

theorem get?_summed (entries : List Entry) (e : Entry) :
    (summed entries).get? e.key = (group e.fields entries).foldl joined none := by
  rw [summed, get?_foldl_collectInto, Table.get?_empty, group_eq_filter_key]

/-- What stands under a key is a group that is added up. -/
theorem exists_group_of_get?_summed {key : List String} {sum : Entry}
    (h : (summed entries).get? key = some sum) : key = sum.key ∧ sum.separate = false ∧
      ∃ e rest, group sum.fields entries = e :: rest ∧ sum = rest.foldl absorb e := by
  rw [summed, get?_foldl_collectInto, Table.get?_empty] at h
  cases hgroup : (entries.filter (!·.separate)).filter fun e => e.key = key with
  | nil =>
    rw [hgroup] at h
    cases h
  | cons e rest =>
    rw [hgroup, List.foldl_cons] at h
    cases (foldl_joined_some e rest).symm.trans h
    have hmem : e ∈ (entries.filter (!·.separate)).filter fun e => e.key = key :=
      hgroup ▸ .head rest
    obtain ⟨-, rfl, hseparate⟩ : e ∈ entries ∧ e.key = key ∧ e.separate = false := by
      simpa using hmem
    refine ⟨?_, ?_, e, rest, ?_, rfl⟩
    · rw [key_eq_iff, fields_foldl_absorb]
    · rw [separate_foldl_absorb, hseparate]
    · rw [fields_foldl_absorb, group_eq_filter_key, hgroup]

theorem mem_values_summed {sum : Entry} (h : sum ∈ (summed entries).values) :
    (summed entries).get? sum.key = some sum := by
  obtain ⟨⟨key, sum⟩, hmem, rfl⟩ := List.mem_map.1 h
  have hget := (Table.get?_eq_some_iff _).2 hmem
  rwa [← (exists_group_of_get?_summed hget).1]

/-- Entries that are added up give their sums. -/
theorem sums_summed (h : Bounded entries) : Sums entries (summed entries).values where
  together sum hsum := (exists_group_of_get?_summed (mem_values_summed hsum)).2.1
  ascending := by
    refine List.pairwise_map.2 ((summed entries).ascending.imp_of_mem ?_)
    intro a b ha hb hlt
    rw [← key_lt_iff]
    rwa [← (exists_group_of_get?_summed ((Table.get?_eq_some_iff _).2 ha)).1,
      ← (exists_group_of_get?_summed ((Table.get?_eq_some_iff _).2 hb)).1]
  groups fields := by
    constructor
    · rintro ⟨sum, hsum, rfl⟩
      obtain ⟨-, -, e, rest, hgroup, -⟩ := exists_group_of_get?_summed (mem_values_summed hsum)
      rw [hgroup]
      exact List.cons_ne_nil e rest
    · intro hgroup
      obtain ⟨e, rest, hcons⟩ := List.exists_cons_of_ne_nil hgroup
      have he : e ∈ group fields entries := hcons ▸ .head rest
      obtain ⟨-, -, rfl⟩ := mem_group.1 he
      have hget := get?_summed entries e
      rw [hcons, List.foldl_cons, joined, foldl_joined_some] at hget
      exact ⟨_, List.mem_map_of_mem ((Table.get?_eq_some_iff _).1 hget),
        fields_foldl_absorb e rest⟩
  totals sum hsum name := by
    obtain ⟨-, -, e, rest, hgroup, heq⟩ := exists_group_of_get?_summed (mem_values_summed hsum)
    have hbound := h sum.fields name
    rw [hgroup] at hbound ⊢
    rw [heq, get?_foldl_absorb hbound]

/-! ## Lists with the same totals -/

instance : Std.Irrefl Precedes := ⟨fun _ h => Std.lt_irrefl (key_lt_iff.2 h)⟩

instance : Std.Antisymm Precedes :=
  ⟨fun _ _ h h' => absurd (Std.lt_trans (key_lt_iff.2 h) (key_lt_iff.2 h')) Std.lt_irrefl⟩

/-- A list has only one list of sums. -/
theorem Sums.unique {sums' : List Entry} (h : Sums entries sums) (h' : Sums entries sums') :
    sums = sums' := by
  have hmem {sums sums' : List Entry} (h : Sums entries sums) (h' : Sums entries sums')
      {e : Entry} (he : e ∈ sums) : e ∈ sums' := by
    obtain ⟨e', he', hfields⟩ := (h'.groups e.fields).2 ((h.groups e.fields).1 ⟨e, he, rfl⟩)
    have hamounts : e'.amounts = e.amounts := Table.ext_get? fun name => by
      rw [h.totals e he, h'.totals e' he', hfields]
    have heq : e' = e := by
      have hseparate := (h'.together e' he').trans (h.together e he).symm
      cases e
      cases e'
      cases hfields
      cases hamounts
      cases hseparate
      rfl
    exact heq ▸ he'
  exact h.ascending.eq_of_mem_iff h'.ascending fun _ => ⟨hmem h h', hmem h' h⟩

/-- Lists with the same groups and totals. -/
structure Agree (entries others : List Entry) : Prop where
  groups : ∀ fields, group fields entries = [] ↔ group fields others = []
  totals : ∀ fields name,
    total (amountsOf name (group fields entries)) = total (amountsOf name (group fields others))

theorem Sums.congr (h : Sums entries sums) (hagree : Agree entries others) : Sums others sums where
  together := h.together
  ascending := h.ascending
  groups fields := (h.groups fields).trans (not_congr (hagree.groups fields))
  totals e he name := (h.totals e he name).trans (hagree.totals e.fields name)

/-- Lists with the same totals and the same separate entries are added up alike. -/
theorem merge_congr (h : Bounded entries) (hothers : Bounded others) (hagree : Agree entries others)
    (hseparate : entries.filter (·.separate) = others.filter (·.separate)) :
    merge entries = merge others := by
  rw [merge_eq, merge_eq, hseparate,
    ((sums_summed h).congr hagree).unique (sums_summed hothers)]

/-! ## Entries in another order -/

theorem group_perm (h : (others.filter (!·.separate)).Perm (entries.filter (!·.separate)))
    (fields : Table String String) : (group fields others).Perm (group fields entries) := by
  have hsplit (es : List Entry) : group fields es =
      (es.filter (!·.separate)).filter fun e => e.fields = fields := by
    rw [List.filter_filter, group]
    exact List.filter_congr fun _ _ => Bool.and_comm ..
  rw [hsplit, hsplit]
  exact h.filter _

theorem total_perm {ns ms : List Int} (h : ns.Perm ms) : total ns = total ms := by
  cases ns with
  | nil => rw [h.nil_eq]
  | cons n ns =>
    cases ms with
    | nil => exact absurd h.eq_nil (List.cons_ne_nil n ns)
    | cons m ms => exact congrArg some h.sum_eq

/-- Entries that are added up can come in any order. -/
theorem merge_perm (h : Bounded entries)
    (hperm : (others.filter (!·.separate)).Perm (entries.filter (!·.separate)))
    (hseparate : others.filter (·.separate) = entries.filter (·.separate)) :
    merge others = merge entries := by
  have hgroup := group_perm hperm
  refine merge_congr (fun fields name => ?_) h ⟨fun fields => ?_, fun fields name => ?_⟩ hseparate
  · have hsum := (((hgroup fields).filterMap (·.amounts.get? name)).map Int.natAbs).sum_nat
    exact hsum.trans_lt (h fields name)
  · rw [← List.length_eq_zero_iff, (hgroup fields).length_eq, List.length_eq_zero_iff]
  · exact total_perm ((hgroup fields).filterMap _)

/-! ## Entries in batches -/

/-- A group has at most one sum. -/
theorem Sums.group_eq (h : Sums entries sums) (fields : Table String String) :
    group fields sums = [] ∧ group fields entries = [] ∨
      ∃ e, group fields sums = [e] ∧ e ∈ sums ∧ e.fields = fields ∧ group fields entries ≠ [] := by
  cases hgroup : group fields sums with
  | nil =>
    refine .inl ⟨rfl, not_not.1 fun hentries => ?_⟩
    obtain ⟨e, he, hfields⟩ := (h.groups fields).2 hentries
    have hmem := mem_group.2 ⟨he, h.together e he, hfields⟩
    rw [hgroup] at hmem
    cases hmem
  | cons e rest =>
    have hmem {x : Entry} (hx : x ∈ e :: rest) : x ∈ sums ∧ x.fields = fields := by
      obtain ⟨hx, -, hfields⟩ := mem_group.1 (hgroup ▸ hx)
      exact ⟨hx, hfields⟩
    obtain ⟨he, hfields⟩ := hmem (.head rest)
    refine .inr ⟨e, ?_, he, hfields, (h.groups fields).1 ⟨e, he, hfields⟩⟩
    cases rest with
    | nil => rfl
    | cons other rest =>
      -- Two sums of one group would not be in strictly ascending order.
      have hascending := h.ascending.sublist (List.filter_sublist (p := fun e =>
        !e.separate && decide (e.fields = fields)))
      rw [← group, hgroup] at hascending
      have hlt := key_lt_iff.2 (List.rel_of_pairwise_cons hascending (.head rest))
      rw [key_eq_iff.2 (hfields.trans (hmem (.tail _ (.head rest))).2.symm)] at hlt
      exact absurd hlt Std.lt_irrefl

/-- The sums of a list are in its groups, each alone and with the totals of its group. -/
theorem group_merge (h : Bounded entries) (fields : Table String String) :
    (group fields (merge entries) = [] ↔ group fields entries = []) ∧
      ∀ name, amountsOf name (group fields (merge entries)) =
        (total (amountsOf name (group fields entries))).toList := by
  have hsums := sums_summed h
  have hgroup : group fields (merge entries) = group fields (summed entries).values := by
    have hseparate : group fields (entries.filter (·.separate)) = [] := by
      refine List.eq_nil_iff_forall_not_mem.2 fun e he => ?_
      obtain ⟨hmem, hseparate, -⟩ := mem_group.1 he
      exact Bool.eq_false_iff.1 hseparate (List.of_mem_filter hmem)
    rw [merge_eq, group_append, hseparate, List.append_nil]
  rw [hgroup]
  rcases hsums.group_eq fields with ⟨hnone, hempty⟩ | ⟨e, hone, he, rfl, hentries⟩
  · rw [hnone, hempty]
    exact ⟨.rfl, fun _ => rfl⟩
  · rw [hone]
    refine ⟨iff_of_false (List.cons_ne_nil e []) hentries, fun name => ?_⟩
    rw [amountsOf_singleton, hsums.totals e he]

theorem filter_separate_merge (h : Bounded entries) :
    (merge entries).filter (·.separate) = entries.filter (·.separate) := by
  have hnone : (summed entries).values.filter (·.separate) = [] :=
    List.filter_eq_nil_iff.2 fun e he => by simp [(sums_summed h).together e he]
  rw [merge_eq, List.filter_append, hnone, List.nil_append, List.filter_filter]
  simp

theorem Bounded.of_append {second : List Entry} (h : Bounded (entries ++ second)) :
    Bounded entries := by
  intro fields name
  have hsum := h fields name
  rw [group_append, amountsOf_append, List.map_append, List.sum_append] at hsum
  exact Nat.lt_of_le_of_lt (Nat.le_add_right _ _) hsum

/-- Entries can be added up in batches. -/
theorem merge_merge_append {second : List Entry} (h : Bounded (entries ++ second)) :
    merge (merge entries ++ second) = merge (entries ++ second) := by
  have hgroup := group_merge h.of_append
  have hamounts (fields : Table String String) (name : String) :
      amountsOf name (group fields (merge entries ++ second)) =
        (total (amountsOf name (group fields entries))).toList ++
          amountsOf name (group fields second) := by
    rw [group_append, amountsOf_append, (hgroup fields).2]
  refine merge_congr (fun fields name => ?_) h ⟨fun fields => ?_, fun fields name => ?_⟩ ?_
  · have hsum := h fields name
    rw [group_append, amountsOf_append, List.map_append, List.sum_append] at hsum
    rw [hamounts, List.map_append, List.sum_append]
    exact Nat.lt_of_le_of_lt (Nat.add_le_add_right (natAbs_total_le _) _) hsum
  · rw [group_append, group_append, List.append_eq_nil_iff, List.append_eq_nil_iff,
      (hgroup fields).1]
  · rw [hamounts, total_append, group_append, amountsOf_append]
  · rw [List.filter_append, List.filter_append, filter_separate_merge h.of_append]

/-- Entries of which no sum leaves 64 bits are added up exactly: each group becomes one entry with the
sums of its amounts, in ascending order, and the separate entries follow as they came.  The others can
come in any order and in batches, and sums stay what they are. -/
theorem merge_exact (h : Bounded entries) :
    (∃ sums, Sums entries sums ∧ merge entries = sums ++ entries.filter (·.separate)) ∧
    (∀ others : List Entry, (others.filter (!·.separate)).Perm (entries.filter (!·.separate)) →
      others.filter (·.separate) = entries.filter (·.separate) →
      merge others = merge entries) ∧
    merge (merge entries) = merge entries ∧
    ∀ first second, entries = first ++ second →
      merge (merge first ++ second) = merge entries := by
  refine ⟨⟨_, sums_summed h, merge_eq entries⟩, fun others => merge_perm h, ?_, ?_⟩
  · have hall : Bounded (entries ++ []) := by
      rw [List.append_nil]
      exact h
    have hbatch := merge_merge_append hall
    rw [List.append_nil, List.append_nil] at hbatch
    exact hbatch
  · rintro first second rfl
    exact merge_merge_append h

/-- Amounts that are small all together are small in each group. -/
theorem Bounded.of_all
    (h : ((entries.flatMap fun e => e.amounts.values).map Int.natAbs).sum < 2 ^ 63) :
    Bounded entries := by
  intro fields name
  have hamounts (es : List Entry) :
      (amountsOf name es).Sublist (es.flatMap fun e => e.amounts.values) := by
    induction es with
    | nil => exact .slnil
    | cons e es ih =>
      rw [List.flatMap_cons, ← List.singleton_append, amountsOf_append, amountsOf_singleton]
      refine List.Sublist.append ?_ ih
      cases hget : e.amounts.get? name with
      | none => exact List.nil_sublist _
      | some n =>
        exact List.singleton_sublist.2 (List.mem_map_of_mem ((Table.get?_eq_some_iff _).1 hget))
  have hgroup : (amountsOf name (group fields entries)).Sublist (amountsOf name entries) :=
    List.filter_sublist.filterMap _
  have hall := (hgroup.trans (hamounts entries)).map Int.natAbs
  exact Nat.lt_of_le_of_lt (hall.sum_le_sum fun _ _ => Nat.zero_le _) h

/-- Postings to two accounts, one of them to stay separate. -/
def postings : List Entry :=
  [⟨.ofList [("account", "Debtors")], .ofList [("credit", 0), ("debit", 100)], false⟩,
   ⟨.ofList [("account", "Sales")], .ofList [("credit", 100)], false⟩,
   ⟨.ofList [("account", "Debtors")], .ofList [("debit", 5)], true⟩,
   ⟨.ofList [("account", "Debtors")], .ofList [("debit", -250)], false⟩]

theorem merge_exact_postings :
    Bounded postings ∧ merge postings.reverse = merge postings ∧
      merge (merge (postings.take 2) ++ postings.drop 2) = merge postings := by
  have hbounded : Bounded postings := .of_all (by decide +kernel)
  obtain ⟨-, hperm, -, hbatch⟩ := merge_exact hbounded
  exact ⟨hbounded, hperm _ ((List.reverse_perm _).filter _) rfl, hbatch _ _ rfl⟩

end Recast.Assessment.Entry
