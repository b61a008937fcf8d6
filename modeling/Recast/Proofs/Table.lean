/-
  Proofs/Table.lean --- tables and the lists they are made from.
-/
import Mathlib.Data.List.Pairwise
import Recast.Table

set_option autoImplicit false

namespace Recast.Table

variable {κ α β : Type} [LE κ] [LT κ] [Std.IsLinearOrder κ] [Std.LawfulOrderLT κ] [DecidableLT κ]

omit [LE κ] [Std.IsLinearOrder κ] [Std.LawfulOrderLT κ] [DecidableLT κ] in
@[ext]
theorem ext {s t : Table κ α} (h : s.entries = t.entries) : s = t := by
  cases s
  cases t
  cases h
  rfl

omit [LE κ] [Std.IsLinearOrder κ] [Std.LawfulOrderLT κ] [DecidableLT κ] in
instance instDecidableEq [DecidableEq κ] [DecidableEq α] : DecidableEq (Table κ α) := fun _ _ =>
  decidable_of_iff _ ⟨ext, congrArg entries⟩

omit [LE κ] [Std.IsLinearOrder κ] [Std.LawfulOrderLT κ] [DecidableLT κ] in
theorem entries_map (f : α → β) (t : Table κ α) :
    (t.map f).entries = t.entries.map fun e => (e.1, f e.2) := rfl

/-- An entry above all others is put at the end. -/
theorem put_of_above {k : κ} {v : α} {es : List (κ × α)} (h : ∀ e ∈ es, e.1 < k) :
    put k v es = es ++ [(k, v)] := by
  induction es with
  | nil => rfl
  | cons e rest ih =>
    have he := h e (.head _)
    have hnot : ¬k < e.1 := Std.not_lt.2 (Std.le_of_lt he)
    rw [put, if_neg hnot, if_pos he, ih fun x hx => h x (.tail _ hx), List.cons_append]

theorem entries_foldl_insert {es : List (κ × α)} {t : Table κ α}
    (h : (t.entries ++ es).Pairwise fun a b => a.1 < b.1) :
    (es.foldl (fun t e => t.insert e.1 e.2) t).entries = t.entries ++ es := by
  induction es generalizing t with
  | nil => simp
  | cons e rest ih =>
    have hput : (t.insert e.1 e.2).entries = t.entries ++ [e] := by
      refine put_of_above fun x hx => ?_
      exact (List.pairwise_append.1 h).2.2 x hx e (.head _)
    have hsplit : t.entries ++ e :: rest = (t.insert e.1 e.2).entries ++ rest := by
      rw [hput, List.append_assoc, List.singleton_append]
    rw [List.foldl_cons, ih (by rw [← hsplit]; exact h), hsplit]

/-- The table of ascending entries has just these entries. -/
theorem entries_ofList {es : List (κ × α)} (h : es.Pairwise fun a b => a.1 < b.1) :
    (ofList es).entries = es :=
  entries_foldl_insert (t := empty) h

/-- A table is the table of its entries. -/
theorem ofList_entries (t : Table κ α) : ofList t.entries = t :=
  ext (entries_ofList t.ascending)

/-- A set is the set of its keys. -/
theorem keys_ofList_keys (t : Keys κ) : Keys.ofList t.keys = t := by
  have hentries : (t.keys.map fun k => (k, ())) = t.entries := by
    rw [keys, List.map_map]
    exact List.map_id t.entries
  rw [Keys.ofList, hentries, ofList_entries]


omit [LE κ] [Std.IsLinearOrder κ] [Std.LawfulOrderLT κ] [DecidableLT κ] in
theorem value_eq_of_mem [Std.Irrefl (α := κ) (· < ·)] {es : List (κ × α)} {k : κ} {v w : α}
    (h : es.Pairwise fun a b => a.1 < b.1) (hv : (k, v) ∈ es) (hw : (k, w) ∈ es) : v = w := by
  induction es with
  | nil => cases hv
  | cons e es ih =>
    rw [List.pairwise_cons] at h
    have hirrefl : ¬k < k := Std.Irrefl.irrefl k
    rcases List.mem_cons.1 hv with rfl | hv
    · rcases List.mem_cons.1 hw with heq | hw
      · exact (Prod.mk.inj heq).2.symm
      · exact absurd (h.1 (k, w) hw) hirrefl
    · rcases List.mem_cons.1 hw with rfl | hw
      · exact absurd (h.1 (k, v) ‹_›) hirrefl
      · exact ih h.2 ‹_› hw

omit [Std.IsLinearOrder κ] [DecidableLT κ] in
/-- A look-up finds the value of the entry with its key. -/
theorem get?_eq_some_iff [DecidableEq κ] (t : Table κ α) {k : κ} {v : α} :
    t.get? k = some v ↔ (k, v) ∈ t.entries := by
  constructor
  · intro h
    obtain ⟨e, he, rfl⟩ := Option.map_eq_some_iff.1 h
    have hkey : e.1 = k := by simpa using List.find?_some he
    rw [← hkey]
    exact List.mem_of_find?_eq_some he
  · intro h
    cases hfind : t.entries.find? fun e => e.1 = k with
    | none => exact absurd (decide_eq_true rfl) (List.find?_eq_none.1 hfind _ h)
    | some e =>
      have hkey : e.1 = k := by simpa using List.find?_some hfind
      have hmem := List.mem_of_find?_eq_some hfind
      rw [get?, hfind, Option.map_some]
      obtain ⟨k', w⟩ := e
      cases hkey
      rw [value_eq_of_mem t.ascending h hmem]

omit [LE κ] [Std.IsLinearOrder κ] [Std.LawfulOrderLT κ] [DecidableLT κ] in
theorem keys_ascending (t : Table κ α) : t.keys.Pairwise (· < ·) :=
  List.pairwise_map.2 t.ascending

omit [Std.IsLinearOrder κ] [DecidableLT κ] in
theorem mem_keys_iff [DecidableEq κ] (t : Table κ α) {k : κ} : k ∈ t.keys ↔ t.get? k ≠ none := by
  rw [Option.ne_none_iff_exists', keys, List.mem_map]
  constructor
  · rintro ⟨e, he, rfl⟩
    exact ⟨e.2, t.get?_eq_some_iff.2 he⟩
  · rintro ⟨v, hv⟩
    exact ⟨(k, v), t.get?_eq_some_iff.1 hv, rfl⟩

omit [DecidableLT κ] in
/-- Ascending lists with the same members are the same. -/
theorem eq_of_ascending {ks ls : List κ} (hk : ks.Pairwise (· < ·)) (hl : ls.Pairwise (· < ·))
    (h : ∀ k, k ∈ ks ↔ k ∈ ls) : ks = ls := by
  have hnodup {ks : List κ} (hk : ks.Pairwise (· < ·)) : ks.Nodup := by
    refine List.Pairwise.imp (fun {a b} (hlt : a < b) => ?_) hk
    rintro rfl
    exact Std.lt_irrefl hlt
  refine List.Perm.eq_of_pairwise (fun a b _ _ hab hba => ?_) hk hl
    ((List.perm_ext_iff_of_nodup (hnodup hk) (hnodup hl)).2 h)
  exact absurd (Std.lt_trans hab hba) Std.lt_irrefl

/-! ## Look-ups -/

variable [DecidableEq κ]

omit [LE κ] [Std.IsLinearOrder κ] [Std.LawfulOrderLT κ] [DecidableLT κ] in
@[simp] theorem get?_empty (k : κ) : (∅ : Table κ α).get? k = none := rfl

omit [Std.IsLinearOrder κ] [DecidableLT κ] in
/-- A look-up among the entries that a condition keeps. -/
theorem get?_filter (keep : κ → α → Bool) (t : Table κ α) (k : κ) :
    (t.filter keep).get? k = (t.get? k).filter (keep k) := by
  refine Option.ext fun v => ?_
  rw [get?_eq_some_iff, Option.filter_eq_some_iff, get?_eq_some_iff]
  exact List.mem_filter

omit [DecidableLT κ] in
/-- Tables in which all look-ups agree are the same. -/
theorem ext_get? {s t : Table κ α} (h : ∀ k, s.get? k = t.get? k) : s = t := by
  have hmem (e : κ × α) : e ∈ s.entries ↔ e ∈ t.entries := by
    rw [← get?_eq_some_iff, ← get?_eq_some_iff, h]
  have hnodup (t : Table κ α) : t.entries.Nodup := by
    refine t.ascending.imp fun {a b} hlt => ?_
    rintro rfl
    exact Std.lt_irrefl hlt
  refine ext (List.Perm.eq_of_pairwise (fun a b _ _ hab hba => ?_) s.ascending t.ascending
    ((List.perm_ext_iff_of_nodup (hnodup s) (hnodup t)).2 hmem))
  exact absurd (Std.lt_trans hab hba) Std.lt_irrefl

omit [DecidableLT κ] in
/-- Taking away an entry that is not there changes nothing. -/
theorem erase_of_get?_eq_none {t : Table κ α} {k : κ} (h : t.get? k = none) : t.erase k = t := by
  refine ext_get? fun key => ?_
  rw [get?_erase]
  split
  · next heq => rw [heq, h]
  · rfl

/-- A look-up after the value of a key was changed. -/
theorem get?_update (t : Table κ α) (k k' : κ) (fresh : α) (f : α → α) :
    (t.update k fresh f).get? k' =
      if k' = k then some (f ((t.get? k).getD fresh)) else t.get? k' :=
  get?_insert t k k' _

/-- Entries with different keys can be put in either order. -/
theorem insert_comm {k l : κ} (h : k ≠ l) (v w : α) (t : Table κ α) :
    (t.insert k v).insert l w = (t.insert l w).insert k v := by
  refine ext_get? fun key => ?_
  rw [get?_insert, get?_insert, get?_insert, get?_insert]
  by_cases hl : key = l
  · rw [if_pos hl, if_neg (fun hk => h (hk.symm.trans hl)), if_pos hl]
  · rw [if_neg hl, if_neg hl]

/-- A look-up after entries were put finds the last one with the key, or what was there before. -/
theorem get?_foldl_insert_eq_find? (t : Table κ α) (es : List (κ × α)) (k : κ) :
    (es.foldl (fun t e => t.insert e.1 e.2) t).get? k =
      ((es.reverse.find? fun e => e.1 = k).map (·.2)).or (t.get? k) := by
  induction es generalizing t with
  | nil => rfl
  | cons e es ih =>
    rw [List.foldl_cons, ih, get?_insert, List.reverse_cons, List.find?_append]
    cases hfind : es.reverse.find? fun e => e.1 = k with
    | some found => rfl
    | none =>
      by_cases hk : k = e.1
      · simp [hk]
      · simp [hk, Ne.symm hk]

theorem get?_ofList (es : List (κ × α)) (k : κ) :
    (ofList es).get? k = (es.reverse.find? fun e => e.1 = k).map (·.2) := by
  rw [ofList, get?_foldl_insert_eq_find?]
  change Option.or _ ((∅ : Table κ α).get? k) = _
  rw [get?_empty, Option.or_none]

/-- A look-up after entries were put finds one of them, or what was there before. -/
theorem get?_foldl_insert (t : Table κ α) (es : List (κ × α)) (k : κ) :
    (es.foldl (fun t e => t.insert e.1 e.2) t).get? k = ((ofList es).get? k).or (t.get? k) := by
  rw [get?_foldl_insert_eq_find?, get?_ofList]

theorem get?_ofList_eq_none_iff {es : List (κ × α)} {k : κ} :
    (ofList es).get? k = none ↔ ∀ e ∈ es, e.1 ≠ k := by
  rw [get?_ofList, Option.map_eq_none_iff, List.find?_eq_none]
  simp

/-- The keys of a table are those of the entries that it is made from. -/
theorem mem_keys_ofList_iff {es : List (κ × α)} {k : κ} :
    k ∈ (ofList es).keys ↔ ∃ e ∈ es, e.1 = k := by
  rw [mem_keys_iff, ne_eq, get?_ofList_eq_none_iff]
  simp

/-- A set has the items of the list that it is made from. -/
theorem mem_keys_ofList {ks : List κ} {k : κ} : k ∈ (Keys.ofList ks).keys ↔ k ∈ ks := by
  rw [Keys.ofList, mem_keys_ofList_iff]
  simp

theorem contains_ofList {ks : List κ} {k : κ} : (Keys.ofList ks).contains k = true ↔ k ∈ ks := by
  rw [contains, Option.isSome_iff_ne_none, ← mem_keys_iff, mem_keys_ofList]

omit [DecidableEq κ] in
theorem mem_of_mem_ofList {es : List (κ × α)} {e : κ × α} (h : e ∈ (ofList es).entries) :
    e ∈ es := by
  have hfold (es : List (κ × α)) (t : Table κ α)
      (h : e ∈ (es.foldl (fun t e => t.insert e.1 e.2) t).entries) : e ∈ t.entries ∨ e ∈ es := by
    induction es generalizing t with
    | nil => exact .inl h
    | cons x es ih =>
      rcases ih (t.insert x.1 x.2) h with h | h
      · rcases mem_put h with rfl | h
        · exact .inr (.head _)
        · exact .inl h
      · exact .inr (.tail _ h)
  rcases hfold es empty h with h | h
  · cases h
  · exact h

omit [DecidableEq κ] in
/-- A new entry is put somewhere among the others. -/
theorem put_perm {k : κ} {es : List (κ × α)} (h : ∀ e ∈ es, k ≠ e.1) (v : α) :
    (put k v es).Perm ((k, v) :: es) := by
  induction es with
  | nil => exact .refl _
  | cons e es ih =>
    unfold put
    split
    · exact .refl _
    · split
      · exact ((ih fun x hx => h x (.tail _ hx)).cons e).trans (.swap _ _ _)
      · next hk hk' => exact absurd (eq_of_not_lt hk hk') (h e (.head _))

theorem get?_ofList_cons (e : κ × α) (es : List (κ × α)) (k : κ) :
    (ofList (e :: es)).get? k = ((ofList es).get? k).or (if k = e.1 then some e.2 else none) := by
  rw [ofList, List.foldl_cons, get?_foldl_insert, get?_insert]
  rfl

/-- The entries of a table are those of its list that no later one with the same key replaces. -/
theorem entries_ofList_perm (es : List (κ × α)) :
    (ofList es).entries.Perm (es.pwFilter fun e later => e.1 ≠ later.1) := by
  induction es with
  | nil => exact .nil
  | cons e es ih =>
    have hkept := List.forall_mem_pwFilter (R := fun e later : κ × α => e.1 ≠ later.1)
      (fun {x y z} hxz => or_iff_not_imp_left.2 fun hxy => not_not.1 hxy ▸ hxz) e es
    by_cases hnew : ∀ later ∈ es, e.1 ≠ later.1
    · have hcons : ofList (e :: es) = (ofList es).insert e.1 e.2 := by
        refine ext_get? fun k => ?_
        rw [get?_ofList_cons, get?_insert]
        split
        · next hk => rw [get?_ofList_eq_none_iff.2 fun x hx => hk ▸ (hnew x hx).symm, Option.none_or]
        · rw [Option.or_none]
      rw [hcons, List.pwFilter_cons_of_pos (hkept.2 hnew)]
      refine (put_perm (fun x hx => hnew x ?_) e.2).trans (ih.cons e)
      exact List.pwFilter_subset _ (ih.subset hx)
    · have hcons : ofList (e :: es) = ofList es := by
        refine ext_get? fun k => ?_
        rw [get?_ofList_cons]
        split
        · next hk =>
          have hsome : (ofList es).get? k ≠ none := by
            rwa [Ne, get?_ofList_eq_none_iff, hk, ← forall₂_congr fun _ _ => ne_comm]
          exact Option.or_of_isSome (Option.isSome_iff_ne_none.2 hsome)
        · rw [Option.or_none]
      rw [hcons, List.pwFilter_cons_of_neg (mt hkept.1 hnew)]
      exact ih

end Recast.Table
