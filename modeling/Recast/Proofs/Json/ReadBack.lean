/-
  Proofs/Json/ReadBack.lean --- reading back what the printer writes.

  What a reading step `Gives` for a text does not depend on what follows, as long as that does not
  go on with a number.  The statement is about every text the printer puts together, so it composes
  over arrays and objects; a component that cannot be read makes the whole unreadable.
-/
import Recast.Json.Printer
import Recast.Json.Reader

set_option autoImplicit false

namespace Recast.Json.Reader

/-- A text that a number in front of it does not go on with. -/
def EndsNumber (rest : List Char) : Prop :=
  ∀ c, rest.head? = some c → c.isDigit = false ∧ c ≠ '.' ∧ c ≠ 'e' ∧ c ≠ 'E'

theorem endsNumber_nil : EndsNumber [] := by
  intro c h
  cases h

theorem endsNumber_cons {c : Char} (rest : List Char) (h : c = ',' ∨ c = ']' ∨ c = '\x7d') :
    EndsNumber (c :: rest) := by
  intro d hd
  obtain rfl : c = d := Option.some.inj hd
  rcases h with rfl | rfl | rfl <;> decide

/-- A text that begins like an item: neither with a blank nor with a closing bracket. -/
def BeginsItem (text : List Char) : Prop :=
  ∃ c cs, text = c :: cs ∧ c ∉ [' ', '\n', '\t', '\r', ']', '\x7d']

/-- What a reading step makes of a text, whatever follows. -/
structure Gives {α : Type} (item : Step α) (text : List Char) (result : Option α) : Prop where
  begins : BeginsItem text
  reads : ∀ rest, EndsNumber rest → item (text ++ rest) = result.map (·, rest)

theorem skipBlanks_of_beginsItem {text : List Char} (h : BeginsItem text) (rest : List Char) :
    skipBlanks (text ++ rest) = text ++ rest := by
  obtain ⟨c, cs, rfl, hc⟩ := h
  simp only [List.mem_cons, List.not_mem_nil, or_false, not_or] at hc
  obtain ⟨h₁, h₂, h₃, h₄, -⟩ := hc
  simp [skipBlanks, h₁, h₂, h₃, h₄]

theorem skipBlanks_cons {c : Char} (rest : List Char) (h : c = ',' ∨ c = ']' ∨ c = '\x7d') :
    skipBlanks (c :: rest) = c :: rest := by
  rcases h with rfl | rfl | rfl <;> rfl

/-! ## Strings -/

theorem hexWord_of_lt {n : Nat} (h : n < 32) :
    hexWord '0' '0' (Text.hexDigit (n / 16)) (Text.hexDigit (n % 16)) = some n := by
  have hzero : Text.hexDigit? '0' = some 0 := rfl
  simp only [hexWord, hzero, Text.hexDigit?_hexDigit (n / 16) (by omega),
    Text.hexDigit?_hexDigit (n % 16) (by omega), Option.bind_eq_bind, Option.bind_some,
    Option.pure_def,
    Option.some.injEq]
  omega

/-- An escaped character is read back. -/
theorem stringTail_escapeChar (read : List Char) (c : Char) (rest : List Char) :
    stringTail read (escapeChar c ++ rest) = stringTail (c :: read) rest := by
  unfold escapeChar
  split
  all_goals try solve | simp [stringTail, simpleEscape?]
  split
  · next hlow =>
    have hlt : c.toNat < 32 := hlow
    have hchar : Char.ofNat c.toNat = c := Char.ofNat_toNat c
    simp only [List.cons_append, List.nil_append]
    rw [stringTail]
    simp only [hexWord_of_lt hlt]
    rw [if_neg (by omega), if_neg (by omega), hchar]
  · next h₁ h₂ h₃ h₄ h₅ h₆ h₇ hlow =>
    have hplain : ¬(c < ' ' ∨ c = '\\') := fun h => h.elim hlow h₂
    rw [List.singleton_append, stringTail.eq_def]
    split
    · next hnil => cases hnil
    · next hcons => exact absurd (List.cons.inj hcons).1 h₁
    · next hcons => exact absurd (List.cons.inj hcons).1 h₂
    · next hcons => exact absurd (List.cons.inj hcons).1 h₂
    · next hcons =>
      obtain ⟨rfl, rfl⟩ := List.cons.inj hcons
      rw [if_neg hplain]

/-- The rest of a quoted string is read back. -/
theorem stringTail_flatMap (read cs rest : List Char) :
    stringTail read (cs.flatMap escapeChar ++ '"' :: rest) =
      some (String.ofList (read.reverse ++ cs), rest) := by
  induction cs generalizing read with
  | nil => simp [stringTail]
  | cons c cs ih =>
    rw [List.flatMap_cons, List.append_assoc, stringTail_escapeChar, ih]
    simp

theorem toList_quote (s : String) :
    (quote s).toList = '"' :: (s.toList.flatMap escapeChar ++ ['"']) := by
  simp [quote]

theorem stringTail_quote (s : String) (rest : List Char) :
    stringTail [] (s.toList.flatMap escapeChar ++ ['"'] ++ rest) = some (s, rest) := by
  rw [List.append_assoc, List.singleton_append, stringTail_flatMap]
  simp

/-- A string is read back. -/
theorem gives_quote (depth : Nat) (s : String) :
    Gives (value (depth + 1)) (quote s).toList (some (.string s)) := by
  refine ⟨⟨'"', _, toList_quote s, by decide⟩, ?_⟩
  intro rest _
  rw [toList_quote, List.cons_append]
  simp only [value, stringTail_quote]
  rfl

theorem gives_null (depth : Nat) : Gives (value (depth + 1)) "null".toList (some .null) :=
  ⟨⟨'n', _, rfl, by decide⟩, fun _ _ => rfl⟩

/-! ## Numbers -/

theorem digit?_eq (c : Char) :
    digit? c = if c.isDigit then some (c.toNat - '0'.toNat) else none := by
  have hdigit : ('0' ≤ c ∧ c ≤ '9') ↔ c.isDigit = true :=
    (and_congr decide_eq_true_iff.symm decide_eq_true_iff.symm).trans
      (Iff.of_eq (Bool.and_eq_true _ _).symm)
  simp only [digit?, hdigit]

theorem le_ofDigitChars (digits : List Char) (value : Nat) :
    value ≤ Nat.ofDigitChars 10 digits value := by
  induction digits generalizing value with
  | nil => exact Nat.le_of_eq Nat.ofDigitChars_nil.symm
  | cons c digits ih =>
    rw [Nat.ofDigitChars_cons]
    have := ih (10 * value + (c.toNat - '0'.toNat))
    omega

theorem isDigit_head_of_endsNumber {c : Char} {rest : List Char} (h : EndsNumber (c :: rest)) :
    c.isDigit = false :=
  (h c rfl).1

/-- Digits of a number that fits a word are read to their end. -/
theorem significandDigits_append (value : Nat) {digits rest : List Char}
    (hdigits : ∀ c ∈ digits, c.isDigit = true) (hrest : EndsNumber rest)
    (hfits : Nat.ofDigitChars 10 digits value ≤ maxSignificand) :
    significandDigits value (digits ++ rest) = (Nat.ofDigitChars 10 digits value, rest) := by
  induction digits generalizing value with
  | nil =>
    rw [List.nil_append, Nat.ofDigitChars_nil]
    cases rest with
    | nil => rfl
    | cons c rest =>
      have hc := isDigit_head_of_endsNumber hrest
      simp [significandDigits, digit?_eq, hc]
  | cons c digits ih =>
    have hc := hdigits c (.head _)
    rw [Nat.ofDigitChars_cons] at hfits ⊢
    have hstep : value * 10 + (c.toNat - '0'.toNat) = 10 * value + (c.toNat - '0'.toNat) := by
      omega
    have hle := le_ofDigitChars digits (10 * value + (c.toNat - '0'.toNat))
    rw [List.cons_append, significandDigits, digit?_eq, if_pos hc]
    dsimp only
    rw [if_neg (by omega), hstep]
    exact ih _ (fun d hd => hdigits d (.tail _ hd)) hfits

/-- A number begins with a zero only if it is zero. -/
theorem head?_toDigits {n : Nat} (h : 0 < n) : (Nat.toDigits 10 n).head? ≠ some '0' := by
  induction n using Nat.strongRecOn with
  | ind n ih =>
    by_cases hn : n < 10
    · rw [Nat.toDigits_of_lt_base hn, List.head?_cons]
      intro hzero
      have := Nat.digitChar_eq_zero.1 (Option.some.inj hzero)
      omega
    · have hfirst := ih (n / 10) (by omega) (by omega)
      obtain ⟨c, cs, hcs⟩ := List.exists_cons_of_ne_nil (Nat.toDigits_ne_nil (n := n / 10) (b := 10))
      rw [hcs] at hfirst
      rw [Nat.toDigits_of_base_le (by omega) (by omega), hcs]
      exact hfirst

/-- A natural number of at most 64 bits is read back. -/
theorem unsignedNumber_toDigits {n : Nat} (h : n < 2 ^ 64) {rest : List Char}
    (hrest : EndsNumber rest) :
    unsignedNumber false (Nat.toDigits 10 n ++ rest) = some (.whole n, rest) := by
  have hdigits : ∀ c ∈ Nat.toDigits 10 n, c.isDigit = true := fun c hc =>
    Nat.isDigit_of_mem_toDigits (by omega) (by omega) hc
  have hvalue : Nat.ofDigitChars 10 (Nat.toDigits 10 n) 0 = n := Nat.ofDigitChars_ten_toDigits
  have hread := significandDigits_append 0 hdigits hrest
    (by rw [hvalue]; unfold maxSignificand; omega)
  rw [hvalue] at hread
  have hnodigit : rest.head?.any Char.isDigit = false := by
    cases rest with
    | nil => rfl
    | cons c rest => simpa using isDigit_head_of_endsNumber hrest
  have hnofraction : hasFraction rest = false := by
    cases rest with
    | nil => rfl
    | cons c rest =>
      obtain ⟨-, hdot, he, hE⟩ := hrest c rfl
      simp [hasFraction, hdot, he, hE]
  have hzero : ∀ c tail, Nat.toDigits 10 n = c :: tail →
      ¬(c = '0' ∧ (tail ++ rest).head?.any Char.isDigit = true) := by
    rintro c tail hcons ⟨rfl, hany⟩
    rcases Nat.eq_zero_or_pos n with rfl | hpos
    · rw [Nat.toDigits_zero] at hcons
      obtain rfl : tail = [] := (List.cons.inj hcons).2.symm
      rw [List.nil_append, hnodigit] at hany
      exact Bool.noConfusion hany
    · exact head?_toDigits hpos (by rw [hcons]; rfl)
  obtain ⟨c, tail, hcons⟩ := List.exists_cons_of_ne_nil (Nat.toDigits_ne_nil (n := n) (b := 10))
  have hc : c.isDigit = true := hdigits c (by rw [hcons]; exact .head _)
  have hlead := hzero c tail hcons
  rw [hcons] at hread ⊢
  rw [List.cons_append] at hread ⊢
  unfold unsignedNumber
  dsimp only
  rw [digit?_eq, if_pos hc, if_neg (by simp), if_neg hlead, hread]
  simp only [hnodigit, hnofraction, Bool.false_eq_true, if_false]

theorem ne_of_isDigit {c : Char} (h : c.isDigit = true) (d : Char) (hd : d.isDigit = false) :
    c ≠ d := by
  rintro rfl
  rw [h] at hd
  exact Bool.noConfusion hd

/-- A character that begins a number begins no other value. -/
theorem value_of_isDigit (depth : Nat) {c : Char} (h : c.isDigit = true) (cs : List Char) :
    value (depth + 1) (c :: cs) = (number (c :: cs)).map fun (n, rest) => (.number n, rest) := by
  have hne := ne_of_isDigit h
  rw [value.eq_def]
  dsimp only
  split
  · next heq => exact absurd (List.cons.inj heq).1 (hne _ (by decide))
  · next heq => exact absurd (List.cons.inj heq).1 (hne _ (by decide))
  · next heq => exact absurd (List.cons.inj heq).1 (hne _ (by decide))
  · next heq => exact absurd (List.cons.inj heq).1 (hne _ (by decide))
  · next heq => exact absurd (List.cons.inj heq).1 (hne _ (by decide))
  · next heq => exact absurd (List.cons.inj heq).1 (hne _ (by decide))
  · rfl

/-- A natural number of at most 64 bits is read back. -/
theorem gives_nat (depth : Nat) {n : Nat} (h : n < 2 ^ 64) :
    Gives (value (depth + 1)) (toString n).toList (some (.ofNat n)) := by
  have htext : (toString n).toList = Nat.toDigits 10 n := Nat.toList_repr
  obtain ⟨c, tail, hcons⟩ := List.exists_cons_of_ne_nil (Nat.toDigits_ne_nil (n := n) (b := 10))
  have hc : c.isDigit = true :=
    Nat.isDigit_of_mem_toDigits (b := 10) (n := n) (by omega) (by omega) (by rw [hcons]; exact .head _)
  have hne := ne_of_isDigit hc
  rw [htext]
  refine ⟨⟨c, tail, hcons, ?_⟩, ?_⟩
  · intro hmem
    simp only [List.mem_cons, List.not_mem_nil, or_false] at hmem
    rcases hmem with rfl | rfl | rfl | rfl | rfl | rfl <;> exact absurd hc (by decide)
  · intro rest hrest
    have hread := unsignedNumber_toDigits h hrest
    rw [hcons] at hread ⊢
    rw [List.cons_append] at hread ⊢
    rw [value_of_isDigit depth hc]
    have hnumber : number (c :: (tail ++ rest)) = unsignedNumber false (c :: (tail ++ rest)) := by
      rw [number.eq_def]
      split
      · next heq => exact absurd (List.cons.inj heq).1 (hne _ (by decide))
      · rfl
    rw [hnumber, hread]
    rfl

/-! ## Arrays and objects -/

/-- A sequence of items is read item by item. -/
theorem sequenceTail_intercalate {α : Type} {item : Step α} {close : Char}
    (hclose : close = ']' ∨ close = '\x7d') {first : List Char × Option α}
    {others : List (List Char × Option α)} (h : ∀ e ∈ first :: others, Gives item e.1 e.2)
    (rest : List Char) (fuel : Nat) (hfuel : others.length < fuel) (read : List α) :
    sequenceTail close item fuel read
        ([','].intercalate ((first :: others).map Prod.fst) ++ close :: rest) =
      ((first :: others).mapM Prod.snd).map fun as => (read.reverse ++ as, rest) := by
  induction others generalizing first fuel read with
  | nil =>
    obtain ⟨fuel, rfl⟩ : ∃ n, fuel = n + 1 := ⟨fuel - 1, by omega⟩
    obtain ⟨hbegins, hreads⟩ := h first (.head _)
    have hread := hreads (close :: rest) (endsNumber_cons rest (.inr hclose))
    rw [List.map_cons, List.map_nil, List.intercalate_singleton, sequenceTail,
      skipBlanks_of_beginsItem hbegins, hread, List.mapM_cons, List.mapM_nil]
    cases first.2 with
    | none => rfl
    | some a =>
      rcases hclose with rfl | rfl <;> simp [skipBlanks]
  | cons second others ih =>
    obtain ⟨fuel, rfl⟩ : ∃ n, fuel = n + 1 := ⟨fuel - 1, by omega⟩
    obtain ⟨hbegins, hreads⟩ := h first (.head _)
    have hfuel' : others.length < fuel := by
      rw [List.length_cons] at hfuel
      omega
    have hrest := fun read => ih (fun e he => h e (.tail _ he)) fuel hfuel' read
    generalize htexts : [','].intercalate ((second :: others).map Prod.fst) = texts at hrest
    have hread := hreads (',' :: (texts ++ close :: rest)) (endsNumber_cons _ (.inl rfl))
    have hsplit : [','].intercalate ((first :: second :: others).map Prod.fst) ++ close :: rest =
        first.1 ++ ',' :: (texts ++ close :: rest) := by
      rw [← htexts, List.map_cons, List.map_cons, List.intercalate_cons_cons]
      simp
    rw [hsplit, sequenceTail, skipBlanks_of_beginsItem hbegins, hread, List.mapM_cons]
    cases first.2 with
    | none => rfl
    | some a =>
      simp only [Option.map_some, skipBlanks_cons _ (.inl rfl), hrest, Option.bind_eq_bind,
        Option.bind_some]
      cases (second :: others).mapM Prod.snd with
      | none => rfl
      | some as => simp

theorem length_le_intercalate (first : List Char) (others : List (List Char)) :
    others.length ≤ ([','].intercalate (first :: others)).length := by
  induction others generalizing first with
  | nil => exact Nat.zero_le _
  | cons second others ih =>
    have := ih second
    rw [List.intercalate_cons_cons]
    simp only [List.length_append, List.length_cons, List.length_nil]
    omega

/-- The items between brackets are read item by item. -/
theorem sequenceItems_intercalate {α : Type} {item : Step α} {close : Char}
    (hclose : close = ']' ∨ close = '\x7d') {entries : List (List Char × Option α)}
    (h : ∀ e ∈ entries, Gives item e.1 e.2) (rest : List Char) :
    sequenceItems close item ([','].intercalate (entries.map Prod.fst) ++ close :: rest) =
      (entries.mapM Prod.snd).map (·, rest) := by
  cases entries with
  | nil =>
    rw [List.map_nil, List.intercalate_nil, List.nil_append, sequenceItems,
      skipBlanks_cons rest (.inr hclose), List.mapM_nil]
    simp
  | cons first others =>
    obtain ⟨c, cs, htext, hc⟩ : BeginsItem ([','].intercalate ((first :: others).map Prod.fst)) := by
      obtain ⟨c, cs, htext, hc⟩ := (h first (.head _)).begins
      cases others with
      | nil => exact ⟨c, cs, by simp [htext], hc⟩
      | cons second others =>
        exact ⟨c, _, by
          rw [List.map_cons, List.map_cons, List.intercalate_cons_cons, htext]; rfl, hc⟩
    have hskip := skipBlanks_of_beginsItem ⟨c, cs, htext, hc⟩ (close :: rest)
    have hne : c ≠ close := by
      rintro rfl
      rcases hclose with rfl | rfl <;> exact hc (by decide)
    have htail := sequenceTail_intercalate hclose h rest
      ([','].intercalate ((first :: others).map Prod.fst) ++ close :: rest).length ?_ []
    · rw [sequenceItems, hskip, htail]
      simp only [htext, List.cons_append, if_neg hne, List.reverse_nil, List.nil_append]
    · have := length_le_intercalate first.1 (others.map Prod.fst)
      simp only [List.map_cons, List.length_append, List.length_cons, List.length_map] at this ⊢
      omega

/-! ### Members -/

/-- What the reader makes of the text of a value. -/
def Reads (real : Float → String) (depth : Nat) (j : Json) (result : Option Json) : Prop :=
  Gives (value depth) (render real j).toList result

variable {real : Float → String}

theorem map_toList_renderItems (xs : List Json) :
    (renderItems real xs).map String.toList = xs.map fun x => (render real x).toList := by
  induction xs with
  | nil => rfl
  | cons x xs ih => rw [renderItems, List.map_cons, List.map_cons, ih]

theorem map_toList_renderMembers (ms : List (String × Json)) :
    (renderMembers real ms).map String.toList =
      ms.map fun m => (quote m.1 ++ ":" ++ render real m.2).toList := by
  induction ms with
  | nil => rfl
  | cons m ms ih =>
    obtain ⟨name, v⟩ := m
    rw [renderMembers, List.map_cons, List.map_cons, ih]

/-- An array is read item by item. -/
theorem reads_array {α : Type} {depth : Nat} (f : α → Json) (g : α → Option Json) (xs : List α)
    (h : ∀ x ∈ xs, Reads real depth (f x) (g x)) :
    Reads real (depth + 1) (.array (xs.map f)) ((xs.mapM g).map .array) := by
  let entries := xs.map fun x => ((render real (f x)).toList, g x)
  have hentries : ∀ e ∈ entries, Gives (value depth) e.1 e.2 := by
    intro e he
    obtain ⟨x, hx, rfl⟩ := List.mem_map.1 he
    exact h x hx
  have htexts : entries.map Prod.fst = (renderItems real (xs.map f)).map String.toList := by
    rw [map_toList_renderItems, List.map_map, List.map_map]
    rfl
  have hresults : entries.mapM Prod.snd = xs.mapM g := by
    rw [List.mapM_map]
    rfl
  have htext : (render real (.array (xs.map f))).toList =
      '[' :: ([','].intercalate (entries.map Prod.fst) ++ [']']) := by
    have hopen : "[".toList = ['['] := rfl
    have hcomma : ",".toList = [','] := rfl
    have hclose : "]".toList = [']'] := rfl
    rw [htexts, render, String.toList_append, String.toList_append, String.toList_intercalate,
      hopen, hcomma, hclose]
    rfl
  refine ⟨⟨'[', _, htext, by decide⟩, ?_⟩
  intro rest _
  have hread := sequenceItems_intercalate (.inl rfl) hentries rest
  rw [htext, List.cons_append, List.append_assoc, List.singleton_append, value, hread, hresults]
  cases xs.mapM g <;> rfl

/-- A member of an object is read with its name. -/
theorem gives_member {depth : Nat} (name : String) {j : Json} {result : Option Json}
    (h : Reads real depth j result) :
    Gives (memberOf (value depth)) (quote name ++ ":" ++ render real j).toList
      (result.map fun v => (name, v)) := by
  have htext : (quote name ++ ":" ++ render real j).toList =
      '"' :: (name.toList.flatMap escapeChar ++ ['"'] ++ ':' :: (render real j).toList) := by
    rw [String.toList_append, String.toList_append, toList_quote]
    simp
  refine ⟨⟨'"', _, htext, by decide⟩, ?_⟩
  intro rest hrest
  have hblank : skipBlanks (':' :: ((render real j).toList ++ rest)) =
      ':' :: ((render real j).toList ++ rest) := rfl
  rw [htext, List.cons_append, List.append_assoc, memberOf, stringTail_quote]
  simp only [List.cons_append, hblank, skipBlanks_of_beginsItem h.begins, h.reads rest hrest]
  cases result <;> rfl

/-- An object is read member by member. -/
theorem reads_object {α : Type} {depth : Nat} (name : α → String) (f : α → Json)
    (g : α → Option Json) (xs : List α) (h : ∀ x ∈ xs, Reads real depth (f x) (g x)) :
    Reads real (depth + 1) (.object (xs.map fun x => (name x, f x)))
      ((xs.mapM fun x => (g x).map fun v => (name x, v)).map .object) := by
  let entries := xs.map fun x =>
    ((quote (name x) ++ ":" ++ render real (f x)).toList, (g x).map fun v => (name x, v))
  have hentries : ∀ e ∈ entries, Gives (memberOf (value depth)) e.1 e.2 := by
    intro e he
    obtain ⟨x, hx, rfl⟩ := List.mem_map.1 he
    dsimp only
    exact gives_member (name x) (h x hx)
  have htexts : entries.map Prod.fst =
      (renderMembers real (xs.map fun x => (name x, f x))).map String.toList := by
    rw [map_toList_renderMembers, List.map_map, List.map_map]
    rfl
  have hresults : entries.mapM Prod.snd = xs.mapM fun x => (g x).map fun v => (name x, v) := by
    rw [List.mapM_map]
    rfl
  have htext : (render real (.object (xs.map fun x => (name x, f x)))).toList =
      '\x7b' :: ([','].intercalate (entries.map Prod.fst) ++ ['\x7d']) := by
    have hopen : "\x7b".toList = ['\x7b'] := rfl
    have hcomma : ",".toList = [','] := rfl
    have hclose : "\x7d".toList = ['\x7d'] := rfl
    rw [htexts, render, String.toList_append, String.toList_append, String.toList_intercalate,
      hopen, hcomma, hclose]
    rfl
  refine ⟨⟨'\x7b', _, htext, by decide⟩, ?_⟩
  intro rest _
  have hread := sequenceItems_intercalate (.inr rfl) hentries rest
  rw [htext, List.cons_append, List.append_assoc, List.singleton_append, value, hread, hresults]
  cases xs.mapM fun x => (g x).map fun v => (name x, v) <;> rfl

/-! ## Values that are read back -/

theorem mapM_some {α β : Type} (f : α → β) (xs : List α) :
    (xs.mapM fun x => some (f x)) = some (xs.map f) := by
  induction xs with
  | nil => rfl
  | cons x xs ih => simp [ih]

/-- An array of values that are read back is read back. -/
theorem reads_ofList {α : Type} {depth : Nat} {f : α → Json} {xs : List α}
    (h : ∀ x ∈ xs, Reads real depth (f x) (some (f x))) :
    Reads real (depth + 1) (.ofList f xs) (some (.ofList f xs)) := by
  have hread := reads_array f (fun x => some (f x)) xs h
  rwa [mapM_some] at hread

/-- An object whose members are read back is read back. -/
theorem reads_members (depth : Nat) {members : List (String × Json)}
    (h : ∀ m ∈ members, Reads real depth m.2 (some m.2)) :
    Reads real (depth + 1) (.object members) (some (.object members)) := by
  have hread := reads_object Prod.fst Prod.snd (fun m => some m.2) members h
  have hsame : (members.map fun m => (m.1, m.2)) = members := List.map_id members
  simp only [Option.map_some] at hread
  rwa [mapM_some, hsame] at hread

theorem reads_string (depth : Nat) (s : String) :
    Reads real (depth + 1) (.string s) (some (.string s)) := gives_quote depth s

theorem reads_nat (depth : Nat) {n : Nat} (h : n < 2 ^ 64) :
    Reads real (depth + 1) (.ofNat n) (some (.ofNat n)) := gives_nat depth h

theorem reads_ofOption {α : Type} (depth : Nat) {f : α → Json} {a : Option α}
    (h : ∀ x, a = some x → Reads real (depth + 1) (f x) (some (f x))) :
    Reads real (depth + 1) (.ofOption f a) (some (.ofOption f a)) := by
  cases a with
  | none => exact gives_null depth
  | some x => exact h x rfl

/-- A whole text that a value was printed as. -/
theorem parse?_render {j : Json} {result : Option Json} (h : Reads real maxDepth j result) :
    parse? (render real j) = result := by
  have hread := h.reads [] endsNumber_nil
  have hskip := skipBlanks_of_beginsItem h.begins []
  rw [List.append_nil] at hread hskip
  rw [parse?, hskip, hread]
  cases result <;> rfl

end Recast.Json.Reader
