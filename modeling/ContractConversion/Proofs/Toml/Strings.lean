import ContractConversion.Toml.Parser
import ContractConversion.Toml.Printer
import Mathlib.Data.Nat.Notation
import Mathlib.Tactic.Lemma

/-!
# Strings that are read back

Each of the four notations of a string is undone by its reader. The traits of a string decide the
notation, so a lemma says for each notation what its reader needs of the string, and `Traits.pick`
takes no notation that its string does not fit (`Reader.string_writeString`). The text behind a
string has to start with something other than a quote: up to two quotes there would belong to the
string.
-/

namespace ContractConversion.Toml

/-! ## Traits -/

lemma le_longestRun (c : Char) (current longest : ℕ) (cs : List Char) :
    current ≤ longestRun c current longest cs ∧ longest ≤ longestRun c current longest cs := by
  induction cs generalizing current longest with
  | nil => exact ⟨Nat.le_max_left _ _, Nat.le_max_right _ _⟩
  | cons d rest ih =>
    rw [longestRun]
    split
    · have := ih (current + 1) longest
      omega
    · have := ih 0 (max current longest)
      omega

/-- A character without a run is not there. -/
lemma notMem_of_longestRun {c : Char} {cs : List Char} (h : longestRun c 0 0 cs = 0) : c ∉ cs := by
  induction cs with
  | nil => exact List.not_mem_nil
  | cons d rest ih =>
    rw [longestRun] at h
    split at h
    · have := (le_longestRun c (0 + 1) 0 rest).1
      omega
    next hd => exact fun hmem => (List.mem_cons.mp hmem).elim (fun heq => hd heq.symm) (ih h)

/-- A character that is no control character may stand as it is, or is a line feed. -/
lemma plain_of_not_isControl {c : Char} (h : isControl c = false) :
    Reader.isPlain c = true ∨ c = '\n' := by
  by_cases htab : c = '\t'
  · simp [Reader.isPlain, htab]
  · by_cases hfeed : c = '\n'
    · exact .inr hfeed
    · simp [isControl, Reader.isPlain, htab, hfeed] at *
      omega

/-! ## Escapes -/

/-- The four digits of a small number are read as it. -/
lemma hexChar_small {n : ℕ} (h : n < 128) (tail : List Char) :
    Reader.hexChar 4
        (['0', '0', Text.upperHexDigit (n / 16), Text.upperHexDigit (n % 16)] ++ tail) =
      some (Char.ofNat n, tail) := by
  have hdigits : ∀ m : Fin 128,
      let digits := ['0', '0', Text.upperHexDigit (m / 16), Text.upperHexDigit (m % 16)]
      digits.all Reader.isHexDigit = true ∧ Text.valueIn 16 digits = m := by
    decide
  obtain ⟨hall, hvalue⟩ := hdigits ⟨n, h⟩
  have hrange : n < 0xD800 ∨ (0xDFFF < n ∧ n ≤ 0x10FFFF) := .inl (by omega)
  rw [Reader.hexChar]
  simp only [List.cons_append, List.nil_append, List.take_succ_cons, List.take_zero,
    List.drop_succ_cons, List.drop_zero, hvalue]
  exact if_pos ⟨rfl, hall, hrange⟩

/-- **An escape stands for its character.** -/
lemma escape_of_escape? {long : Bool} {c : Char} {e : List Char} (h : escape? long c = some e) :
    ∃ e', e = '\\' :: e' ∧ ∀ tail, Reader.escape (e' ++ tail) = some (c, tail) := by
  unfold escape? at h
  split at h
  case h_7 =>
    -- no escape of its own: a control character is written by its number
    split at h
    next hsmall =>
      obtain rfl := Option.some.inj h
      have hlt : c.toNat < 128 := by omega
      have hread := hexChar_small hlt
      rw [Char.ofNat_toNat] at hread
      exact ⟨_, rfl, hread⟩
    next => cases h
  case h_3 =>
    -- a line feed has an escape in the short notation only
    cases long with
    | true => cases h
    | false =>
      obtain rfl := Option.some.inj h
      exact ⟨_, rfl, fun tail => rfl⟩
  all_goals
    obtain rfl := Option.some.inj h
    exact ⟨_, rfl, fun tail => rfl⟩

/-- A character without an escape may stand as it is. -/
lemma plain_of_escape? {long : Bool} {c : Char} (h : escape? long c = none) :
    c ≠ '\\' ∧ c ≠ '\r' ∧ (Reader.isPlain c = true ∨ long = true ∧ c = '\n') := by
  unfold escape? at h
  split at h
  case h_3 =>
    cases long with
    | true => exact ⟨by decide, by decide, .inr ⟨rfl, rfl⟩⟩
    | false => cases h
  case h_7 hreturn hslash =>
    split at h
    next => cases h
    next hlarge =>
      refine ⟨hslash, hreturn, .inl ?_⟩
      simp [Reader.isPlain]
      omega
  all_goals cases h

/-! ## Bodies in double quotes -/

section

variable {long : Bool} {allowed quotes : ℕ} {c : Char}

lemma escapeAll_quote (h : quotes + 1 ≤ allowed) (cs : List Char) :
    escapeAll long allowed quotes ('"' :: cs) =
      '"' :: escapeAll long allowed (quotes + 1) cs := by
  rw [escapeAll, if_pos rfl, if_pos h]

lemma escapeAll_surplus (h : ¬ quotes + 1 ≤ allowed) (cs : List Char) :
    escapeAll long allowed quotes ('"' :: cs) =
      '\\' :: '"' :: escapeAll long allowed 0 cs := by
  rw [escapeAll, if_pos rfl, if_neg h]

/-- Another character is written as its escape or as it is. -/
lemma escapeAll_cons (hquote : c ≠ '"') (cs : List Char) :
    (∃ e, escapeAll long allowed quotes (c :: cs) = '\\' :: e ++ escapeAll long allowed 0 cs ∧
      ∀ tail, Reader.escape (e ++ tail) = some (c, tail)) ∨
    escapeAll long allowed quotes (c :: cs) = c :: escapeAll long allowed 0 cs ∧
      c ≠ '\\' ∧ c ≠ '\r' ∧ (Reader.isPlain c = true ∨ long = true ∧ c = '\n') := by
  rw [escapeAll, if_neg hquote]
  cases hescape : escape? long c with
  | some e =>
    obtain ⟨e, rfl, hread⟩ := escape_of_escape? hescape
    exact .inl ⟨e, rfl, hread⟩
  | none => exact .inr ⟨rfl, plain_of_escape? hescape⟩

end

namespace Reader

section

variable {fuel : ℕ} {acc rest : List Char} {c : Char}

/-- A character that may stand as it is is read as itself. -/
lemma basicString_plain (hquote : c ≠ '"') (hslash : c ≠ '\\') (hplain : isPlain c = true) :
    basicString (fuel + 1) acc (c :: rest) = basicString fuel (c :: acc) rest := by
  rw [basicString]
  · exact if_pos hplain
  · exact hquote
  · exact hslash

lemma basicString_escape {tail : List Char} (h : escape tail = some (c, rest)) :
    basicString (fuel + 1) acc ('\\' :: tail) = basicString fuel (c :: acc) rest := by
  rw [basicString, h]
  rfl

end

/-- **A string in double quotes is read back.** -/
theorem basicString_escapeAll (cs rest : List Char) {fuel : ℕ} (acc : List Char)
    (hfuel : (escapeAll false 0 0 cs).length < fuel) :
    basicString fuel acc (escapeAll false 0 0 cs ++ '"' :: rest) =
      some (String.ofList (acc.reverse ++ cs), rest) := by
  induction cs generalizing fuel acc with
  | nil =>
    obtain ⟨fuel, rfl⟩ : ∃ n, fuel = n + 1 := ⟨fuel - 1, by omega⟩
    rw [escapeAll, List.append_nil]
    rfl
  | cons c cs ih =>
    obtain ⟨fuel, rfl⟩ : ∃ n, fuel = n + 1 := ⟨fuel - 1, by omega⟩
    have hacc : acc.reverse ++ c :: cs = (c :: acc).reverse ++ cs := by simp
    rw [hacc]
    by_cases hquote : c = '"'
    · subst hquote
      rw [escapeAll_surplus (by omega)] at hfuel ⊢
      rw [List.cons_append, List.cons_append, basicString_escape rfl]
      exact ih _ (by simp at hfuel; omega)
    · rcases escapeAll_cons hquote cs with ⟨e, heq, hread⟩ | ⟨heq, hslash, -, hplain⟩
      · rw [heq] at hfuel ⊢
        rw [List.append_assoc, List.cons_append, basicString_escape (hread _)]
        exact ih _ (by simp at hfuel; omega)
      · rw [heq] at hfuel ⊢
        rw [List.cons_append, basicString_plain hquote hslash (by simpa using hplain)]
        exact ih _ (by simp at hfuel; omega)

/-- A string in single quotes is read back. -/
theorem literalString_append {cs : List Char} (h : ∀ c ∈ cs, c ≠ '\'' ∧ isPlain c = true)
    (acc rest : List Char) :
    literalString acc (cs ++ '\'' :: rest) = some (String.ofList (acc.reverse ++ cs), rest) := by
  induction cs generalizing acc with
  | nil => simp [literalString]
  | cons c cs ih =>
    obtain ⟨⟨hquote, hplain⟩, hcs⟩ := List.forall_mem_cons.mp h
    have hacc : acc.reverse ++ c :: cs = (c :: acc).reverse ++ cs := by simp
    rw [hacc, ← ih hcs, List.cons_append, literalString]
    · exact if_pos hplain
    · exact hquote

/-! ## Long notations -/

/-- One or two quotes behind the closing ones belong to the string. -/
lemma closing_replicate {quote : Char} {quotes : ℕ} (hquotes : quotes ≤ 2) {rest : List Char}
    (hrest : rest.head? ≠ some quote) (acc : List Char) :
    closing quote acc (List.replicate quotes quote ++ rest) =
      (String.ofList (acc.reverse ++ List.replicate quotes quote), rest) := by
  have hextra : ((List.replicate quotes quote ++ rest).take 2).takeWhile (· = quote) =
      List.replicate quotes quote := by
    obtain rfl | rfl | rfl : quotes = 0 ∨ quotes = 1 ∨ quotes = 2 := by omega
    all_goals cases rest <;> simp_all
  rw [closing, hextra, List.length_replicate]
  simp

section

variable {fuel quotes : ℕ} {acc rest : List Char} {c : Char}

/-- A character that may stand as it is is read as itself, unless the closing quotes start here. -/
lemma longBasicString_plain (hclose : ∀ tail, c :: rest ≠ '"' :: '"' :: '"' :: tail)
    (hslash : c ≠ '\\') (hreturn : c ≠ '\r') (hplain : isPlain c = true ∨ c = '\n') :
    longBasicString (fuel + 1) acc (c :: rest) = longBasicString fuel (c :: acc) rest := by
  conv => lhs; unfold longBasicString
  split
  next h => exact absurd h (hclose _)
  next h => exact absurd (List.cons.inj h).1 hslash
  next h => exact absurd (List.cons.inj h).1 hreturn
  next h =>
    obtain ⟨rfl, rfl⟩ := List.cons.inj h
    exact if_pos (by simpa using hplain)
  next h => cases h

lemma longBasicString_escape {tail : List Char} (h : escape tail = some (c, rest)) :
    longBasicString (fuel + 1) acc ('\\' :: tail) = longBasicString fuel (c :: acc) rest := by
  rw [longBasicString, h]

/-- Up to two quotes before another character are read as themselves. -/
lemma longBasicString_quotes (hquotes : quotes ≤ 2) (hc : c ≠ '"') :
    longBasicString (fuel + quotes) acc (List.replicate quotes '"' ++ c :: rest) =
      longBasicString fuel (List.replicate quotes '"' ++ acc) (c :: rest) := by
  obtain rfl | rfl | rfl : quotes = 0 ∨ quotes = 1 ∨ quotes = 2 := by omega
  · rfl
  · exact longBasicString_plain (by simp [hc]) (by decide) (by decide) (.inl rfl)
  · calc longBasicString (fuel + 1 + 1) acc ('"' :: '"' :: c :: rest)
      _ = longBasicString (fuel + 1) ('"' :: acc) ('"' :: c :: rest) :=
        longBasicString_plain (by simp [hc]) (by decide) (by decide) (.inl rfl)
      _ = longBasicString fuel ('"' :: '"' :: acc) (c :: rest) :=
        longBasicString_plain (by simp [hc]) (by decide) (by decide) (.inl rfl)

end

/-- **A string in three double quotes is read back**; `quotes` of its quotes stand in front of the
part that is still to be written. -/
theorem longBasicString_escapeAll (cs : List Char) {quotes fuel : ℕ} (hquotes : quotes ≤ 2)
    (acc : List Char) {rest : List Char} (hrest : rest.head? ≠ some '"')
    (hfuel : (escapeAll true 2 quotes cs).length + quotes < fuel) :
    longBasicString fuel acc (List.replicate quotes '"' ++
        (escapeAll true 2 quotes cs ++ (['"', '"', '"'] ++ rest))) =
      some (String.ofList (acc.reverse ++ List.replicate quotes '"' ++ cs), rest) := by
  induction cs generalizing quotes fuel acc with
  | nil =>
    obtain ⟨fuel, rfl⟩ : ∃ n, fuel = n + 1 := ⟨fuel - 1, by omega⟩
    -- the quotes of the string are taken for closing ones, and the last quotes belong to it
    have hshift : List.replicate quotes '"' ++ (escapeAll true 2 quotes [] ++
        (['"', '"', '"'] ++ rest)) = '"' :: '"' :: '"' :: (List.replicate quotes '"' ++ rest) := by
      obtain rfl | rfl | rfl : quotes = 0 ∨ quotes = 1 ∨ quotes = 2 := by omega
      all_goals rfl
    rw [hshift, List.append_nil, longBasicString, closing_replicate hquotes hrest]
  | cons c cs ih =>
    have hacc : acc.reverse ++ List.replicate quotes '"' ++ c :: cs =
        (c :: (List.replicate quotes '"' ++ acc)).reverse ++ List.replicate 0 '"' ++ cs := by
      simp
    by_cases hquote : c = '"'
    · subst hquote
      by_cases hmore : quotes + 1 ≤ 2
      · rw [escapeAll_quote hmore] at hfuel ⊢
        have hread := @ih (quotes + 1) fuel hmore acc (by simp at hfuel; omega)
        simpa [List.replicate_succ'] using hread
      · obtain ⟨fuel, rfl⟩ : ∃ n, fuel = n + 1 + quotes := ⟨fuel - 1 - quotes, by omega⟩
        rw [escapeAll_surplus hmore] at hfuel ⊢
        rw [hacc, List.cons_append, longBasicString_quotes hquotes (by decide), List.cons_append,
          longBasicString_escape rfl]
        exact @ih 0 fuel (by omega) _ (by simp at hfuel; omega)
    · obtain ⟨fuel, rfl⟩ : ∃ n, fuel = n + 1 + quotes := ⟨fuel - 1 - quotes, by omega⟩
      rw [hacc]
      rcases escapeAll_cons hquote cs with ⟨e, heq, hread⟩ | ⟨heq, hslash, hreturn, hplain⟩
      · rw [heq] at hfuel ⊢
        rw [List.append_assoc, List.cons_append, longBasicString_quotes hquotes (by decide),
          longBasicString_escape (hread _)]
        exact @ih 0 fuel (by omega) _ (by simp at hfuel; omega)
      · rw [heq] at hfuel ⊢
        rw [List.cons_append, longBasicString_quotes hquotes hquote,
          longBasicString_plain (fun tail h => hquote (List.cons.inj h).1) hslash hreturn
            (by simpa using hplain)]
        exact @ih 0 fuel (by omega) _ (by simp at hfuel; omega)

section

variable {quotes : ℕ} {acc rest : List Char} {c : Char}

lemma longLiteralString_plain (hclose : ∀ tail, c :: rest ≠ '\'' :: '\'' :: '\'' :: tail)
    (hplain : isPlain c = true ∨ c = '\n') :
    longLiteralString acc (c :: rest) = longLiteralString (c :: acc) rest := by
  conv => lhs; unfold longLiteralString
  split
  next h => exact absurd h (hclose _)
  next h =>
    obtain ⟨rfl, -⟩ := List.cons.inj h
    exact absurd hplain (by decide)
  next h =>
    obtain ⟨rfl, rfl⟩ := List.cons.inj h
    exact if_pos (by simpa using hplain)
  next h => cases h

lemma longLiteralString_quotes (hquotes : quotes ≤ 2) (hc : c ≠ '\'') :
    longLiteralString acc (List.replicate quotes '\'' ++ c :: rest) =
      longLiteralString (List.replicate quotes '\'' ++ acc) (c :: rest) := by
  obtain rfl | rfl | rfl : quotes = 0 ∨ quotes = 1 ∨ quotes = 2 := by omega
  · rfl
  · exact longLiteralString_plain (by simp [hc]) (.inl rfl)
  · calc longLiteralString acc ('\'' :: '\'' :: c :: rest)
      _ = longLiteralString ('\'' :: acc) ('\'' :: c :: rest) :=
        longLiteralString_plain (by simp [hc]) (.inl rfl)
      _ = longLiteralString ('\'' :: '\'' :: acc) (c :: rest) :=
        longLiteralString_plain (by simp [hc]) (.inl rfl)

end

/-- **A string in three single quotes is read back** if no more than two of its quotes stand in a
row. -/
theorem longLiteralString_append {cs : List Char} {quotes longest : ℕ}
    (hruns : longestRun '\'' quotes longest cs ≤ 2) (hplain : ∀ c ∈ cs, isPlain c = true ∨ c = '\n')
    (acc : List Char) {rest : List Char} (hrest : rest.head? ≠ some '\'') :
    longLiteralString acc (List.replicate quotes '\'' ++ (cs ++ (['\'', '\'', '\''] ++ rest))) =
      some (String.ofList (acc.reverse ++ List.replicate quotes '\'' ++ cs), rest) := by
  have hquotes : quotes ≤ 2 := Nat.le_trans (le_longestRun _ _ _ _).1 hruns
  induction cs generalizing quotes longest acc with
  | nil =>
    have hshift : List.replicate quotes '\'' ++ ([] ++ (['\'', '\'', '\''] ++ rest)) =
        '\'' :: '\'' :: '\'' :: (List.replicate quotes '\'' ++ rest) := by
      obtain rfl | rfl | rfl : quotes = 0 ∨ quotes = 1 ∨ quotes = 2 := by omega
      all_goals rfl
    rw [hshift, List.append_nil, longLiteralString, closing_replicate hquotes hrest]
  | cons c cs ih =>
    obtain ⟨hc, hcs⟩ := List.forall_mem_cons.mp hplain
    rw [longestRun] at hruns
    split at hruns
    next hquote =>
      subst hquote
      have hmore := Nat.le_trans (le_longestRun _ _ _ _).1 hruns
      simpa [List.replicate_succ'] using ih hruns hcs acc hmore
    next hquote =>
      have hacc : acc.reverse ++ List.replicate quotes '\'' ++ c :: cs =
          (c :: (List.replicate quotes '\'' ++ acc)).reverse ++ List.replicate 0 '\'' ++ cs := by
        simp
      rw [hacc, List.cons_append, longLiteralString_quotes hquotes hquote,
        longLiteralString_plain (fun tail h => hquote (List.cons.inj h).1) hc]
      exact ih hruns hcs _ (Nat.zero_le 2)

/-! ## Any string -/

/-- A text that does not start with a line break keeps its front. -/
lemma dropNewline_of_head {c : Char} (hfeed : c ≠ '\n') (hreturn : c ≠ '\r') (cs : List Char) :
    dropNewline (c :: cs) = c :: cs := by
  unfold dropNewline newline?
  split
  next h => exact absurd (List.cons.inj h).1 hfeed
  next h => exact absurd (List.cons.inj h).1 hreturn
  next => rfl

section

variable {cs rest : List Char}

/-- The line break in front of a text in double quotes is dropped, and no other. -/
lemma dropNewline_escapeAll (cs rest : List Char) :
    dropNewline ((if (Traits.of cs).newline then ['\n'] else []) ++
        (escapeAll true 2 0 cs ++ '"' :: rest)) = escapeAll true 2 0 cs ++ '"' :: rest := by
  split
  next => rfl
  next hnone =>
    have hfeed : '\n' ∉ cs := by simpa [Traits.of] using hnone
    rw [List.nil_append]
    cases cs with
    | nil => rfl
    | cons c cs =>
      by_cases hquote : c = '"'
      · subst hquote
        rw [escapeAll_quote (by omega)]
        rfl
      · rcases escapeAll_cons hquote cs with ⟨e, heq, -⟩ | ⟨heq, -, hreturn, -⟩
        · rw [heq]
          exact dropNewline_of_head (by decide) (by decide) _
        · rw [heq]
          exact dropNewline_of_head (fun h => hfeed (h ▸ List.mem_cons_self)) hreturn _

lemma dropNewline_literal (h : (Traits.of cs).control = false) (rest : List Char) :
    dropNewline ((if (Traits.of cs).newline then ['\n'] else []) ++ (cs ++ '\'' :: rest)) =
      cs ++ '\'' :: rest := by
  split
  next => rfl
  next hnone =>
    have hfeed : '\n' ∉ cs := by simpa [Traits.of] using hnone
    rw [List.nil_append]
    cases cs with
    | nil => rfl
    | cons c cs =>
      refine dropNewline_of_head (fun h => hfeed (h ▸ List.mem_cons_self)) ?_ _
      rintro rfl
      simp [Traits.of] at h
      exact absurd h.1 (by decide)

/-- A text without control characters holds characters that may stand as they are, and line
feeds. -/
lemma plain_of_control (h : (Traits.of cs).control = false) :
    ∀ c ∈ cs, isPlain c = true ∨ c = '\n' := by
  intro c hc
  exact plain_of_not_isControl (by simpa using List.any_eq_false.mp h c hc)

/-- What a string in single quotes holds. -/
lemma literal_of_pick (h : (Traits.of cs).pick = .literal) :
    cs ≠ [] ∧ ∀ c ∈ cs, c ≠ '\'' ∧ isPlain c = true := by
  have hdecides : ∀ t : Traits, t.pick = .literal →
      t.control = false ∧ t.singleQuotes = 0 ∧ t.newline = false := by
    grind [Traits.pick]
  obtain ⟨hcontrol, hquotes, hnewline⟩ := hdecides _ h
  constructor
  · rintro rfl
    cases h
  · intro c hc
    refine ⟨fun heq => notMem_of_longestRun hquotes (heq ▸ hc),
      (plain_of_control hcontrol c hc).resolve_right ?_⟩
    rintro rfl
    exact absurd hnewline (by simpa [Traits.of] using hc)

/-- What a string in three single quotes holds. -/
lemma longLiteral_of_pick (h : (Traits.of cs).pick = .longLiteral) :
    (Traits.of cs).control = false ∧ longestRun '\'' 0 0 cs ≤ 2 := by
  have hdecides : ∀ t : Traits, t.pick = .longLiteral →
      t.control = false ∧ t.singleQuotes ≤ 2 := by
    grind [Traits.pick]
  exact hdecides _ h

lemma string_basic (h : ∀ tail, cs ≠ '"' :: '"' :: tail) :
    string ('"' :: cs) = some (basicString (cs.length + 1) [] cs) := by
  unfold string
  split
  next heq => exact absurd (List.cons.inj heq).2 (h _)
  next heq =>
    obtain ⟨-, rfl⟩ := List.cons.inj heq
    rfl
  all_goals simp_all

lemma string_literal (h : ∀ tail, cs ≠ '\'' :: '\'' :: tail) :
    string ('\'' :: cs) = some (literalString [] cs) := by
  unfold string
  split
  all_goals simp_all

end

/-- **A string is read back in whatever notation it is written**, if no quote follows. -/
theorem string_writeString (s : String) {rest : List Char} (hdouble : rest.head? ≠ some '"')
    (hsingle : rest.head? ≠ some '\'') :
    string (writeString s ++ rest) = some (some (s, rest)) := by
  rw [writeString]
  generalize hcs : s.toList = cs
  have hs : String.ofList cs = s := by rw [← hcs, String.ofList_toList]
  cases hpick : (Traits.of cs).pick with
  | basic =>
    have hopen : ∀ tail, escapeAll false 0 0 cs ++ '"' :: rest ≠ '"' :: '"' :: tail := by
      intro tail heq
      cases cs with
      | nil => simp_all [escapeAll]
      | cons c cs =>
        by_cases hquote : c = '"'
        · subst hquote
          simp [escapeAll_surplus] at heq
        · rcases @escapeAll_cons false 0 0 c hquote cs with ⟨e, hwrite, -⟩ | ⟨hwrite, -⟩
          · simp [hwrite] at heq
          · simp [hwrite, hquote] at heq
    simp only [List.cons_append, List.append_assoc, List.nil_append]
    rw [string_basic hopen, basicString_escapeAll _ _ _ (by rw [List.length_append]; omega),
      List.reverse_nil, List.nil_append, hs]
  | literal =>
    obtain ⟨hnonempty, hplain⟩ := literal_of_pick hpick
    have hopen : ∀ tail, cs ++ '\'' :: rest ≠ '\'' :: '\'' :: tail := by
      intro tail heq
      cases cs with
      | nil => exact hnonempty rfl
      | cons c cs => exact (hplain c List.mem_cons_self).1 (List.cons.inj heq).1
    simp only [List.cons_append, List.append_assoc, List.nil_append]
    rw [string_literal hopen, literalString_append hplain, List.reverse_nil, List.nil_append, hs]
  | longBasic =>
    have hfront := dropNewline_escapeAll cs ('"' :: '"' :: rest)
    simp only [List.cons_append, List.append_assoc, List.nil_append]
    rw [string, hfront]
    have hread := @longBasicString_escapeAll cs 0
      (((if (Traits.of cs).newline then ['\n'] else []) ++
        (escapeAll true 2 0 cs ++ '"' :: '"' :: '"' :: rest)).length + 1) (by omega) [] rest hdouble
      (by simp only [List.length_append]; omega)
    simpa [hs] using hread
  | longLiteral =>
    obtain ⟨hcontrol, hruns⟩ := longLiteral_of_pick hpick
    have hfront := dropNewline_literal hcontrol ('\'' :: '\'' :: rest)
    have hread := longLiteralString_append hruns (plain_of_control hcontrol) [] hsingle
    simp only [List.cons_append, List.append_assoc, List.nil_append]
    rw [string, hfront]
    simpa [hs] using hread

end Reader

end ContractConversion.Toml
