import ContractConversion.Json.Printer
import Mathlib.Data.Int.Notation
import Mathlib.Data.Nat.Notation
import Mathlib.Tactic.Lemma

/-!
# Written JSON is one line

No character of the compact form of a value is a control character (`Value.le_of_mem_compactChars`):
strings have theirs escaped, and of numbers only digits, signs, points and exponents are written. So
the compact form has no line break in it.
-/

namespace ContractConversion.Json

/-! ## Strings -/

/-- No hexadecimal digit is a control character. -/
lemma le_digitChar {n : ℕ} (h : n < 16) : 0x20 ≤ (Nat.digitChar n).toNat := by
  have hall : ∀ n : Fin 16, 0x20 ≤ (Nat.digitChar n.val).toNat := by decide
  exact hall ⟨n, h⟩

lemma le_of_mem_escape {c d : Char} (h : d ∈ escape c) : 0x20 ≤ d.toNat := by
  unfold escape at h
  split at h
  case h_8 =>
    split at h
    · next hcontrol =>
      simp only [List.mem_cons, List.not_mem_nil, or_false] at h
      rcases h with rfl | rfl | rfl | rfl | rfl | rfl
      · decide
      · decide
      · decide
      · decide
      · exact le_digitChar (by omega)
      · exact le_digitChar (Nat.mod_lt _ (by decide))
    · next hplain =>
      obtain rfl := List.mem_singleton.mp h
      exact Nat.not_lt.mp hplain
  all_goals
    simp only [List.mem_cons, List.not_mem_nil, or_false] at h
    rcases h with rfl | rfl <;> decide

lemma le_of_mem_quote {s : String} {c : Char} (h : c ∈ quote s) : 0x20 ≤ c.toNat := by
  rw [quote, List.mem_append, List.mem_cons, List.mem_flatMap, List.mem_singleton] at h
  rcases h with (rfl | ⟨d, -, h⟩) | rfl
  · decide
  · exact le_of_mem_escape h
  · decide

/-! ## Numbers -/

namespace Number

variable {c : Char} {digits : List Char}

lemma le_of_mem_toDigits {n : ℕ} (h : c ∈ Nat.toDigits 10 n) : 0x20 ≤ c.toNat := by
  have hdigit := Nat.isDigit_of_mem_toDigits (b := 10) (by decide) (by decide) h
  simp only [Char.isDigit, Bool.and_eq_true, decide_eq_true_eq, ge_iff_le, UInt32.le_iff_toNat_le]
    at hdigit
  have hrange : 48 ≤ c.toNat ∧ c.toNat ≤ 57 := hdigit
  omega

lemma le_of_mem_intText {n : ℤ} (h : c ∈ intText n) : 0x20 ≤ c.toNat := by
  cases n with
  | ofNat k => exact le_of_mem_toDigits h
  | negSucc k =>
    rcases List.mem_cons.mp h with rfl | h
    · decide
    · exact le_of_mem_toDigits h

/-- Zeros fill up. -/
lemma le_of_mem_zeros {n : ℕ} (h : c ∈ List.replicate n '0') : 0x20 ≤ c.toNat := by
  rw [List.eq_of_mem_replicate h]
  decide

lemma le_of_mem_positional (hdigits : ∀ d ∈ digits, 0x20 ≤ d.toNat) {places : ℤ}
    (h : c ∈ positional digits places) : 0x20 ≤ c.toNat := by
  rw [positional] at h
  dsimp only at h
  split at h
  · simp only [List.mem_append, List.mem_cons, List.not_mem_nil, or_false] at h
    rcases h with ((rfl | rfl) | h) | h
    · decide
    · decide
    · exact le_of_mem_zeros h
    · exact hdigits c h
  · split at h
    · simp only [List.mem_append, List.mem_cons, List.not_mem_nil, or_false] at h
      rcases h with (h | h) | rfl | rfl
      · exact hdigits c h
      · exact le_of_mem_zeros h
      · decide
      · decide
    · rw [List.mem_append, List.mem_cons] at h
      rcases h with h | rfl | h
      · exact hdigits c (List.mem_of_mem_take h)
      · decide
      · exact hdigits c (List.mem_of_mem_drop h)

lemma le_of_mem_exponential (hdigits : ∀ d ∈ digits, 0x20 ≤ d.toNat) {exponent : ℤ}
    (h : c ∈ exponential digits exponent) : 0x20 ≤ c.toNat := by
  unfold exponential at h
  rw [List.mem_append, List.mem_cons, List.mem_cons] at h
  rcases h with h | rfl | rfl | h
  · split at h
    · exact absurd h List.not_mem_nil
    · exact hdigits c h
    · rcases List.mem_cons.mp h with rfl | h
      · exact hdigits _ List.mem_cons_self
      · rcases List.mem_cons.mp h with rfl | h
        · decide
        · exact hdigits c (List.mem_cons_of_mem _ h)
  · decide
  · split <;> decide
  · exact le_of_mem_toDigits h

lemma le_of_mem_doubleText {bits : UInt64} (h : c ∈ doubleText bits) : 0x20 ≤ c.toNat := by
  have hsign : c ∈ (if bits.toNat < Nat.pow 2 63 then [] else ['-']) → 0x20 ≤ c.toNat := by
    intro h
    split at h
    · exact absurd h List.not_mem_nil
    · obtain rfl := List.mem_singleton.mp h
      decide
  rw [doubleText] at h
  dsimp only at h
  split at h
  · simp only [List.mem_append, List.mem_cons, List.not_mem_nil, or_false] at h
    rcases h with h | rfl | rfl | rfl
    · exact hsign h
    · decide
    · decide
    · decide
  · rcases List.mem_append.mp h with h | h
    · exact hsign h
    · split at h
      · exact le_of_mem_positional (fun d => le_of_mem_toDigits) h
      · exact le_of_mem_exponential (fun d => le_of_mem_toDigits) h

lemma le_of_mem_text {n : Number} (h : c ∈ n.text) : 0x20 ≤ c.toNat := by
  cases n with
  | int n => exact le_of_mem_intText h
  | double bits => exact le_of_mem_doubleText h

end Number

/-! ## Values -/

namespace Value

mutual

/-- Nothing written is a control character. -/
theorem le_of_mem_compactChars : (v : Value) → ∀ c ∈ v.compactChars, 0x20 ≤ c.toNat
  | .null => by simp [compactChars]
  | .bool true => by simp [compactChars]
  | .bool false => by simp [compactChars]
  | .num _ => fun _ h => Number.le_of_mem_text h
  | .str _ => fun _ h => le_of_mem_quote h
  | .arr items => by
    intro c h
    rw [compactChars, List.mem_append, List.mem_cons, List.mem_singleton] at h
    rcases h with (rfl | h) | rfl
    · decide
    · exact le_of_mem_compactItems items c h
    · decide
  | .obj members => by
    intro c h
    rw [compactChars, List.mem_append, List.mem_cons, List.mem_singleton] at h
    rcases h with (rfl | h) | rfl
    · decide
    · exact le_of_mem_compactMembers members c h
    · decide

theorem le_of_mem_compactItems : (vs : List Value) → ∀ c ∈ compactItems vs, 0x20 ≤ c.toNat
  | [] => fun _ h => absurd h List.not_mem_nil
  | [v] => le_of_mem_compactChars v
  | v :: w :: rest => by
    intro c h
    rw [compactItems, List.mem_append, List.mem_cons] at h
    · rcases h with h | rfl | h
      · exact le_of_mem_compactChars v c h
      · decide
      · exact le_of_mem_compactItems (w :: rest) c h
    · simp

theorem le_of_mem_compactMembers : (ms : List (String × Value)) →
    ∀ c ∈ compactMembers ms, 0x20 ≤ c.toNat
  | [] => fun _ h => absurd h List.not_mem_nil
  | [(k, v)] => by
    intro c h
    rw [compactMembers, List.mem_append, List.mem_cons] at h
    rcases h with h | rfl | h
    · exact le_of_mem_quote h
    · decide
    · exact le_of_mem_compactChars v c h
  | (k, v) :: m :: rest => by
    intro c h
    rw [compactMembers, List.mem_append, List.mem_append, List.mem_cons, List.mem_cons] at h
    · rcases h with (h | rfl | h) | rfl | h
      · exact le_of_mem_quote h
      · decide
      · exact le_of_mem_compactChars v c h
      · decide
      · exact le_of_mem_compactMembers (m :: rest) c h
    · simp

end

end Value
end ContractConversion.Json
