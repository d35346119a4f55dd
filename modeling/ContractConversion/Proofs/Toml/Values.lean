import ContractConversion.Proofs.Json.Lexeme
import ContractConversion.Proofs.Text.Digits
import ContractConversion.Proofs.Toml.Strings

/-!
# Values that are read back

Settings are read back from their written forms: numbers from their digits, truth values from their
words, and arrays of strings from one line or from a line for each item.
-/

namespace ContractConversion.Toml

/-- The value that a setting is read as. -/
def Setting.value : Setting → Value
  | text s => .str s
  | number n => .int n
  | flag b => .bool b
  | texts items => .arr (items.map .str)

/-- A number that can be read. -/
def Setting.Fits : Setting → Prop
  | number n => n < 2 ^ 127
  | _ => True

namespace Reader

open Text (isDigit_of_mem_toDigits valueIn_toDigits)

/-! ## Numbers and truth values -/

section

variable {n : ℕ} {c : Char}

lemma isAtom_of_isDigit (h : c.isDigit = true) : isAtom c = true := by
  simp [isAtom, isBare, h]

/-- Digits without underscores are read as they are. -/
lemma digitRun_of_digits {ds : List Char} (hds : ∀ c ∈ ds, c.isDigit = true) (hne : ds ≠ []) :
    digitRun Char.isDigit ds = some ds := by
  induction ds with
  | nil => exact absurd rfl hne
  | cons c ds ih =>
    obtain ⟨hc, hrest⟩ := List.forall_mem_cons.mp hds
    cases ds with
    | nil => rw [digitRun, if_pos hc]
    | cons d ds =>
      have hd : d ≠ '_' := by
        rintro rfl
        exact absurd (hrest _ List.mem_cons_self) (by decide)
      rw [digitRun, if_pos hc, ih hrest (by simp), Option.map_some]
      · exact List.cons_ne_nil _ _
      · exact fun _ heq => hd (List.cons.inj heq).1

lemma decimalRun_toDigits (n : ℕ) : decimalRun (Nat.toDigits 10 n) = some (Nat.toDigits 10 n) := by
  have hall : ∀ c ∈ Nat.toDigits 10 n, c.isDigit = true := fun c => isDigit_of_mem_toDigits
  obtain ⟨c, tail, hdigits, hzero⟩ := Json.Lexer.toDigits_shape n
  rw [hdigits] at hall ⊢
  rw [decimalRun, digitRun_of_digits hall (by simp)]
  split
  next heq =>
    obtain ⟨rfl, rfl⟩ := List.cons.inj (Option.some.inj heq)
    exact absurd (hzero rfl) (by simp)
  next => rfl

/-- The digits of a number are read as it. -/
lemma integer?_toDigits (h : n < 2 ^ 127) : integer? (Nat.toDigits 10 n) = some (n : ℤ) := by
  have hall : ∀ c ∈ Nat.toDigits 10 n, c.isDigit = true := fun c => isDigit_of_mem_toDigits
  have hrun := decimalRun_toDigits n
  have hvalue := valueIn_toDigits n
  obtain ⟨c, tail, hdigits, hzero⟩ := Json.Lexer.toDigits_shape n
  rw [hdigits] at hall hrun hvalue ⊢
  -- a leading zero stands alone, so no mark of another base is behind it
  have hmark : ∀ mark rest, c :: tail ≠ '0' :: mark :: rest := by
    intro mark rest heq
    obtain ⟨rfl, rfl⟩ := List.cons.inj heq
    exact absurd (hzero rfl) (by simp)
  have hsigned : signed (c :: tail) = (false, c :: tail) := by
    have hc := hall c List.mem_cons_self
    unfold signed
    split
    next heq =>
      obtain ⟨rfl, -⟩ := List.cons.inj heq
      exact absurd hc (by decide)
    next heq =>
      obtain ⟨rfl, -⟩ := List.cons.inj heq
      exact absurd hc (by decide)
    next => rfl
  have hlimit : n < Nat.pow 2 128 := Nat.lt_of_lt_of_le h (by decide)
  unfold integer?
  split
  next heq => exact absurd heq (hmark _ _)
  next heq => exact absurd heq (hmark _ _)
  next heq => exact absurd heq (hmark _ _)
  next =>
    simp only [hsigned, hrun, hvalue, bind, Option.bind, if_pos hlimit]
    rfl

/-- The text of an atom ends with its line. -/
lemma atomText_append {text : List Char} (h : ∀ c ∈ text, isAtom c = true) (rest : List Char) :
    atomText (text ++ '\n' :: rest) = (text, '\n' :: rest) := by
  have htake : (text ++ '\n' :: rest).takeWhile isAtom = text := by
    rw [List.takeWhile_append_of_pos h]
    exact List.append_nil text
  have hdrop : (text ++ '\n' :: rest).dropWhile isAtom = '\n' :: rest := by
    rw [List.dropWhile_append_of_pos h]
    rfl
  rw [atomText, htake, hdrop]
  rfl

/-- A number is read back. -/
lemma atom_toDigits (h : n < 2 ^ 127) (rest : List Char) :
    atom (Nat.toDigits 10 n ++ '\n' :: rest) = some (.int n, '\n' :: rest) := by
  have hword : ∀ word : List Char, 't' ∈ word ∨ 'f' ∈ word → Nat.toDigits 10 n ≠ word := by
    rintro word hword rfl
    rcases hword with hmem | hmem
    · exact absurd (isDigit_of_mem_toDigits hmem) (by decide)
    · exact absurd (isDigit_of_mem_toDigits hmem) (by decide)
  rw [atom, atomText_append fun c hc => isAtom_of_isDigit (isDigit_of_mem_toDigits hc)]
  simp only [if_neg (hword ['t', 'r', 'u', 'e'] (by decide)),
    if_neg (hword ['f', 'a', 'l', 's', 'e'] (by decide)), integer?_toDigits h]

/-- A truth value is read back. -/
lemma atom_flag (b : Bool) (rest : List Char) :
    atom ((Setting.flag b).write ++ '\n' :: rest) = some (.bool b, '\n' :: rest) := by
  have htext : (Setting.flag b).write.all isAtom = true := by
    cases b <;> rfl
  rw [atom, atomText_append (List.all_eq_true.mp htext)]
  cases b <;> rfl

end

/-! ## Arrays of strings -/

section

variable {c : Char} {fuel : ℕ}

/-- What is neither a blank nor a line break nor a comment is not passed over. -/
structure Stops (c : Char) : Prop where
  blank : isBlank c = false
  comment : c ≠ '#'
  feed : c ≠ '\n'
  carriage : c ≠ '\r'

lemma skipBlanks_of_stops (h : Stops c) (cs : List Char) : skipBlanks (c :: cs) = c :: cs := by
  rw [skipBlanks, List.dropWhile_cons_of_neg (by simp [h.blank])]

lemma skipSpace_of_stops (h : Stops c) (fuel : ℕ) (cs : List Char) :
    skipSpace fuel (c :: cs) = c :: cs := by
  cases fuel with
  | zero => rfl
  | succ fuel =>
    have hnewline : newline? (c :: cs) = none := by
      unfold newline?
      split
      next heq => exact absurd (List.cons.inj heq).1 h.feed
      next heq => exact absurd (List.cons.inj heq).1 h.carriage
      next => rfl
    unfold skipSpace
    rw [skipBlanks_of_stops h]
    dsimp only
    split
    next heq => exact absurd (List.cons.inj heq).1 h.comment
    next => rw [hnewline]

/-- A line break and the blanks of an indented line are passed over. -/
lemma skipSpace_indented (fuel : ℕ) (cs : List Char) :
    skipSpace (fuel + 2) ('\n' :: ' ' :: ' ' :: ' ' :: ' ' :: cs) = skipSpace (fuel + 1) cs := by
  rfl

/-- A written string starts with a quote. -/
lemma exists_writeString (s : String) :
    ∃ q cs, writeString s = q :: cs ∧ (q = '"' ∨ q = '\'') := by
  rw [writeString]
  cases hpick : (Traits.of s.toList).pick with
  | basic => exact ⟨_, _, rfl, .inl rfl⟩
  | literal => exact ⟨_, _, rfl, .inr rfl⟩
  | longBasic => exact ⟨_, _, rfl, .inl rfl⟩
  | longLiteral => exact ⟨_, _, rfl, .inr rfl⟩

lemma stops_of_quote (h : c = '"' ∨ c = '\'') : Stops c := by
  rcases h with rfl | rfl <;> exact ⟨by decide, by decide, by decide, by decide⟩

/-- A string is read as a value. -/
lemma value_writeString (s : String) {rest : List Char} (hdouble : rest.head? ≠ some '"')
    (hsingle : rest.head? ≠ some '\'') (fuel : ℕ) :
    value (fuel + 1) (writeString s ++ rest) = some (.str s, rest) := by
  unfold value
  rw [string_writeString s hdouble hsingle]
  rfl

/-- A written string is not passed over. -/
lemma skipSpace_writeString (s : String) (fuel : ℕ) (rest : List Char) :
    skipSpace fuel (writeString s ++ rest) = writeString s ++ rest := by
  obtain ⟨q, cs, hwrite, hq⟩ := exists_writeString s
  rw [hwrite]
  exact skipSpace_of_stops (stops_of_quote hq) _ _

/-- What stands behind an item of an array decides whether further items are read. -/
lemma array_item {cs rest : List Char} {s : String}
    (hskip : skipSpace (cs.length + 1) cs = writeString s ++ rest)
    (hdouble : rest.head? ≠ some '"') (hsingle : rest.head? ≠ some '\'') :
    array (fuel + 2) cs =
      match skipSpace (rest.length + 1) rest with
      | ']' :: rest => some ([.str s], rest)
      | ',' :: rest => do
        let (items, rest) ← array (fuel + 1) rest
        return (.str s :: items, rest)
      | _ => none := by
  obtain ⟨q, front, hwrite, hq⟩ := exists_writeString s
  conv => lhs; unfold array
  rw [hskip]
  split
  next heq =>
    rw [hwrite] at heq
    obtain rfl := (List.cons.inj heq).1
    exact absurd hq (by decide)
  next =>
    simp only [value_writeString s hdouble hsingle]
    rfl

/-- The last item of an array stands before its bracket. -/
lemma array_last {cs rest : List Char} {s : String}
    (hskip : skipSpace (cs.length + 1) cs = writeString s ++ ']' :: rest) :
    array (fuel + 2) cs = some ([.str s], rest) := by
  have hclose : Stops ']' := ⟨by decide, by decide, by decide, by decide⟩
  rw [array_item hskip (by simp) (by simp), skipSpace_of_stops hclose]
  rfl

/-- Further items stand behind a comma. -/
lemma array_next {cs rest : List Char} {s : String}
    (hskip : skipSpace (cs.length + 1) cs = writeString s ++ ',' :: rest) :
    array (fuel + 2) cs = do
      let (items, rest) ← array (fuel + 1) rest
      return (.str s :: items, rest) := by
  have hcomma : Stops ',' := ⟨by decide, by decide, by decide, by decide⟩
  rw [array_item hskip (by simp) (by simp), skipSpace_of_stops hcomma]
  rfl

/-- The items of an array on their lines. -/
def itemLines (items : List String) : List Char :=
  items.flatMap fun s => [' ', ' ', ' ', ' '] ++ writeString s ++ [',', '\n']

lemma itemLines_cons (s : String) (items : List String) (rest : List Char) :
    itemLines (s :: items) ++ rest =
      ' ' :: ' ' :: ' ' :: ' ' :: (writeString s ++ ',' :: '\n' :: (itemLines items ++ rest)) := by
  simp [itemLines]

/-- **Items on their lines are read back.** -/
lemma array_itemLines (items : List String) (rest : List Char) {fuel : ℕ}
    (h : items.length < fuel) :
    array fuel ('\n' :: (itemLines items ++ ']' :: rest)) = some (items.map .str, rest) := by
  induction items generalizing fuel with
  | nil =>
    obtain ⟨fuel, rfl⟩ : ∃ n, fuel = n + 1 := ⟨fuel - 1, by omega⟩
    rw [array]
    rfl
  | cons s items ih =>
    rw [List.length_cons] at h
    obtain ⟨fuel, rfl⟩ : ∃ n, fuel = n + 2 := ⟨fuel - 2, by omega⟩
    have hskip : ∀ tail, skipSpace
        (('\n' :: ' ' :: ' ' :: ' ' :: ' ' :: (writeString s ++ tail)).length + 1)
        ('\n' :: ' ' :: ' ' :: ' ' :: ' ' :: (writeString s ++ tail)) = writeString s ++ tail :=
      fun tail => (skipSpace_indented _ _).trans (skipSpace_writeString s _ tail)
    rw [itemLines_cons, array_next (hskip _), ih (by omega)]
    rfl

lemma value_bracket (fuel : ℕ) (cs : List Char) :
    value (fuel + 1) ('[' :: cs) =
      (array fuel cs).map fun (items, rest) => (.arr items, rest) := by
  rw [value]
  rfl

/-- An array of strings is read back. -/
lemma value_writeStrings (items : List String) (rest : List Char) {fuel : ℕ}
    (h : items.length + 2 < fuel) :
    value fuel (writeStrings items ++ rest) = some (.arr (items.map .str), rest) := by
  obtain ⟨fuel, rfl⟩ : ∃ n, fuel = n + 3 := ⟨fuel - 3, by omega⟩
  unfold writeStrings
  split
  next =>
    rw [List.cons_append, value_bracket, array]
    rfl
  next s =>
    have hread := @array_last fuel _ rest s (skipSpace_writeString s _ _)
    rw [List.cons_append, List.cons_append, List.append_assoc, value_bracket]
    exact congrArg _ hread
  next =>
    rw [List.append_assoc, List.append_assoc, List.cons_append, value_bracket]
    have hread := @array_itemLines items rest (fuel + 2) (by omega)
    exact congrArg _ hread

lemma length_itemLines (items : List String) : items.length ≤ (itemLines items).length := by
  induction items with
  | nil => exact Nat.le_refl _
  | cons s items ih =>
    have hcons := congrArg List.length (itemLines_cons s items [])
    simp only [List.length_append, List.length_cons, List.length_nil] at hcons ⊢
    omega

lemma length_writeStrings (items : List String) :
    items.length + 2 ≤ (writeStrings items).length := by
  unfold writeStrings
  split
  next => exact Nat.le_refl _
  next s =>
    obtain ⟨q, cs, hwrite, -⟩ := exists_writeString s
    simp [hwrite]
  next =>
    have := length_itemLines items
    simp only [List.length_append, List.length_cons, List.length_nil]
    rw [itemLines] at this
    omega

end

/-! ## Settings -/

/-- What is neither a string nor an array nor a table is an atom. -/
lemma value_atom {c : Char} (hc : isAtom c = true) (fuel : ℕ) (cs : List Char) :
    value (fuel + 1) (c :: cs) = atom (c :: cs) := by
  have hstring : string (c :: cs) = none := by
    unfold string
    split
    all_goals first
      | rfl
      | next heq =>
        obtain ⟨rfl, -⟩ := List.cons.inj heq
        exact absurd hc (by decide)
  unfold value
  rw [hstring]
  dsimp only
  split
  next heq =>
    obtain ⟨rfl, -⟩ := List.cons.inj heq
    exact absurd hc (by decide)
  next heq =>
    obtain ⟨rfl, -⟩ := List.cons.inj heq
    exact absurd hc (by decide)
  next => rfl

/-- **Each setting is read back from its line.** -/
theorem value_write {setting : Setting} (h : setting.Fits) (rest : List Char) {fuel : ℕ}
    (hfuel : setting.write.length < fuel) :
    value fuel (setting.write ++ '\n' :: rest) = some (setting.value, '\n' :: rest) := by
  obtain ⟨fuel, rfl⟩ : ∃ n, fuel = n + 1 := ⟨fuel - 1, by omega⟩
  cases setting with
  | text s => exact value_writeString s (by simp) (by simp) fuel
  | number n =>
    have hread := atom_toDigits h rest
    obtain ⟨c, tail, hdigits, -⟩ := Json.Lexer.toDigits_shape n
    have hc : isAtom c = true :=
      isAtom_of_isDigit (isDigit_of_mem_toDigits (n := n) (hdigits ▸ List.mem_cons_self))
    rw [hdigits] at hread
    rw [Setting.write, hdigits]
    exact (value_atom hc _ _).trans hread
  | flag b =>
    have hread := atom_flag b rest
    cases b <;> exact (value_atom (by decide) _ _).trans hread
  | texts items =>
    have hlength := length_writeStrings items
    exact value_writeStrings items _ (by rw [Setting.write] at hfuel; omega)

end Reader

end ContractConversion.Toml
