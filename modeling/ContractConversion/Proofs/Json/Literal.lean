import ContractConversion.Json.Lexeme
import ContractConversion.Proofs.Text.Digits
import Mathlib.Algebra.Group.Int.Defs
import Mathlib.Algebra.Group.Nat.Defs
import Mathlib.Tactic.Lemma

/-!
# Written numbers and strings are scanned again

The scanner of a number takes exactly the digits that the printer writes, if nothing stands behind
them that a number would go on with (`Closed`), and it gives the same integer if that has 64 bits
(`number_toDigits`). The scanner of a string takes one character of the string in each round,
however it is escaped, and so gives the same string (`string_quoted`).
-/

namespace ContractConversion.Json

open Text (Symbol)

/-- An integer that is written and read as it is: one of 64 bits, signed or unsigned. -/
def Number.Fits : Number → Prop
  | .int n => -2 ^ 63 ≤ n ∧ n < 2 ^ 64
  | .double _ => False

/-- No number goes on with what stands here. -/
def Closed : List Symbol → Prop
  | [] => True
  | s :: _ => Lexer.digit? s = none ∧ s ≠ .char '.' ∧ s ≠ .char 'e' ∧ s ≠ .char 'E'

namespace Lexer

/-! ## Numbers -/

lemma digit?_of_isDigit {c : Char} (h : c.isDigit = true) : digit? (.char c) = some c := by
  have hc : '0' ≤ c ∧ c ≤ '9' := by
    simpa [Char.isDigit, Char.le_def, UInt32.le_iff_toNat_le] using h
  rw [digit?, if_pos hc]

/-- The scanner takes all digits, up to where the number is closed. -/
lemma digits_append {ds : List Char} (hds : ∀ c ∈ ds, c.isDigit = true) {rest : List Symbol}
    (hrest : Closed rest) (acc : List Char) :
    digits (ds.map .char ++ rest) acc = (acc.reverse ++ ds, rest) := by
  induction ds generalizing acc with
  | nil =>
    rw [List.map_nil, List.nil_append, List.append_nil]
    cases rest with
    | nil => rfl
    | cons s rest => rw [digits, hrest.1]
  | cons c ds ih =>
    have hc := digit?_of_isDigit (hds c List.mem_cons_self)
    have htail := ih (fun d hd => hds d (List.mem_cons_of_mem _ hd)) (c :: acc)
    rw [List.map_cons, List.cons_append, digits, hc]
    simpa using htail

lemma startsWith_of_closed {rest : List Symbol} (h : Closed rest) :
    startsWith '.' rest = false ∧ startsWith 'e' rest = false ∧ startsWith 'E' rest = false := by
  cases rest with
  | nil => exact ⟨rfl, rfl, rfl⟩
  | cons s rest =>
    obtain ⟨-, hpoint, hsmall, hlarge⟩ := h
    exact ⟨decide_eq_false hpoint, decide_eq_false hsmall, decide_eq_false hlarge⟩

lemma le_ofDigitChars (ds : List Char) (m : ℕ) : m ≤ Nat.ofDigitChars 10 ds m := by
  induction ds generalizing m with
  | nil => exact Nat.le_of_eq Nat.ofDigitChars_nil.symm
  | cons c ds ih =>
    rw [Nat.ofDigitChars_cons]
    have := ih (10 * m + (c.toNat - '0'.toNat))
    omega

/-- The whole part of a number of 64 bits is its value. -/
lemma wholePart_eq {ds : List Char} {m : ℕ} (h : Nat.ofDigitChars 10 ds m ≤ Number.limit) :
    Number.wholePart ds ⟨m, 0⟩ = ⟨Nat.ofDigitChars 10 ds m, 0⟩ := by
  induction ds generalizing m with
  | nil => rw [Number.wholePart, Nat.ofDigitChars_nil]
  | cons c ds ih =>
    rw [Nat.ofDigitChars_cons, Nat.mul_comm] at h
    have hle : m * 10 + (c.toNat - '0'.toNat) ≤ Number.limit :=
      Nat.le_trans (le_ofDigitChars ds _) h
    rw [Number.wholePart, if_pos ⟨rfl, hle⟩, ih h, Nat.ofDigitChars_cons, Nat.mul_comm 10]

/-- A written number has a leading zero only if it is zero. -/
lemma toDigits_shape (n : ℕ) :
    ∃ c tail, Nat.toDigits 10 n = c :: tail ∧ (c = '0' → tail = []) := by
  induction n using Nat.strongRecOn with
  | ind n ih =>
    by_cases hlt : n < 10
    · exact ⟨n.digitChar, [], Nat.toDigits_of_lt_base hlt, fun _ => rfl⟩
    · obtain ⟨c, tail, hdigits, hzero⟩ := ih (n / 10) (by omega)
      refine ⟨c, tail ++ [(n % 10).digitChar], ?_, fun hc => ?_⟩
      · rw [Nat.toDigits_of_base_le (by omega) (by omega), hdigits, List.cons_append]
      · -- the front of the digits is a positive number, so it is not written as a zero
        have hvalue : Nat.ofDigitChars 10 (Nat.toDigits 10 (n / 10)) 0 = n / 10 :=
          Nat.ofDigitChars_ten_toDigits
        rw [hdigits, hzero hc, hc] at hvalue
        have : n / 10 = 0 := hvalue.symm
        omega

/-- **The scanner of a number takes what the printer writes.** -/
theorem number_toDigits {n : ℕ} (hn : n < 2 ^ 64) {rest : List Symbol} (hrest : Closed rest)
    (negative : Bool) (offset : ℕ) :
    ∃ stop, number negative offset ((Nat.toDigits 10 n).map .char ++ rest) =
      (.num (.ok (Number.ofInteger n negative)) none, rest, stop) := by
  have hdigits : digits ((Nat.toDigits 10 n).map .char ++ rest) [] = (Nat.toDigits 10 n, rest) :=
    digits_append (fun c hc => Nat.isDigit_of_mem_toDigits (by omega) (by omega) hc) hrest []
  have hvalue : Nat.ofDigitChars 10 (Nat.toDigits 10 n) 0 = n := Nat.ofDigitChars_ten_toDigits
  have hwhole : Number.wholePart (Nat.toDigits 10 n) ⟨0, 0⟩ = ⟨n, 0⟩ := by
    have hle : Nat.ofDigitChars 10 (Nat.toDigits 10 n) 0 ≤ Number.limit := by
      rw [hvalue, Number.limit, Nat.pow_eq]
      omega
    rw [wholePart_eq hle, hvalue]
  obtain ⟨hpoint, hsmall, hlarge⟩ := startsWith_of_closed hrest
  have hafter : afterWhole ⟨n, 0⟩ negative (offset + (Nat.toDigits 10 n).length) rest =
      (.num (.ok (Number.ofInteger n negative)) none, rest,
        offset + (Nat.toDigits 10 n).length) := by
    simp [afterWhole, hpoint, hsmall, hlarge]
  refine ⟨offset + (Nat.toDigits 10 n).length, ?_⟩
  rw [number, hdigits]
  dsimp only
  rw [← hafter, ← hwhole]
  obtain ⟨c, tail, hshape, hzero⟩ := toDigits_shape n
  rw [hshape]
  split
  · next h => exact absurd h (List.cons_ne_nil c tail)
  · next d rest' h =>
    -- a second digit behind a leading zero
    obtain ⟨rfl, htail⟩ := List.cons.inj h
    exact absurd (htail.symm.trans (hzero rfl)) (List.cons_ne_nil _ _)
  · rfl

/-! ## Strings -/

lemma hexValue?_digitChar {n : ℕ} (h : n < 16) : hexValue? (.char (Nat.digitChar n)) = some n :=
  congrArg (Option.map Fin.val) (Text.hexValue?_digitChar ⟨n, h⟩)

/-- A scanner that comes to the written form of a character takes it in one round. -/
lemma string_escape (c : Char) (fuel : ℕ) (st : StringState) (offset : ℕ) (tail : List Symbol) :
    ∃ stop, string (fuel + 1) st offset ((escape c).map .char ++ tail) =
      string fuel (st.push c) stop tail := by
  unfold escape
  split
  · exact ⟨offset + 2, rfl⟩
  · exact ⟨offset + 2, rfl⟩
  · exact ⟨offset + 2, rfl⟩
  · exact ⟨offset + 2, rfl⟩
  · exact ⟨offset + 2, rfl⟩
  · exact ⟨offset + 2, rfl⟩
  · exact ⟨offset + 2, rfl⟩
  · next hquote hslash _ _ _ _ _ =>
    split
    · next hcontrol =>
      -- a control character is written by four hexadecimal digits
      refine ⟨offset + 6, ?_⟩
      have hescape : hexEscape (offset + 2) (.char '0' :: .char '0' ::
          .char (Nat.digitChar (c.toNat / 16)) :: .char (Nat.digitChar (c.toNat % 16)) :: tail) =
            .ok (c.toNat, tail) := by
        have hzero : hexValue? (.char '0') = some 0 := by decide
        have hvalue : ((0 * 16 + 0) * 16 + c.toNat / 16) * 16 + c.toNat % 16 = c.toNat := by omega
        rw [hexEscape, hzero, hexValue?_digitChar (by omega), hexValue?_digitChar (by omega)]
        dsimp only
        rw [hvalue]
      have hchar : c.toNat < 0xD800 ∨ 0xDFFF < c.toNat := by omega
      simp only [List.map_cons, List.map_nil, List.cons_append, List.nil_append]
      rw [string, hescape]
      dsimp only
      rw [if_pos hchar, Char.ofNat_toNat]
    · next hcontrol =>
      refine ⟨offset + c.utf8Size, ?_⟩
      simp only [List.map_cons, List.map_nil, List.cons_append, List.nil_append]
      rw [string, if_neg hcontrol]
      · exact hquote
      · exact fun _ => hslash
      · exact fun _ _ => hslash
      · exact fun _ _ _ => hslash
      · exact fun _ _ _ => hslash

/-- **The scanner of a string takes what the printer writes**, whatever stands behind it. -/
theorem string_quoted (cs : List Char) {fuel : ℕ} (hfuel : cs.length < fuel) (st : StringState)
    (hfault : st.fault = none) (hstray : st.stray = false) (offset : ℕ) (rest : List Symbol) :
    ∃ stop, string fuel st offset ((cs.flatMap escape ++ ['"']).map .char ++ rest) =
      (.str (.ok (String.ofList (st.chars.reverse ++ cs))) none, rest, stop) := by
  induction cs generalizing fuel st offset with
  | nil =>
    obtain ⟨fuel, rfl⟩ := Nat.exists_eq_add_of_lt hfuel
    refine ⟨offset + 1, ?_⟩
    rw [List.flatMap_nil, List.nil_append, List.append_nil]
    rw [List.map_singleton, List.singleton_append, string, StringState.close, hfault, hstray]
    rfl
  | cons c cs ih =>
    obtain ⟨fuel, rfl⟩ : ∃ k, fuel = k + 1 := ⟨fuel - 1, by omega⟩
    obtain ⟨stop, hstep⟩ := string_escape c fuel st offset
      ((cs.flatMap escape ++ ['"']).map .char ++ rest)
    have hlt : cs.length < fuel := Nat.lt_of_succ_lt_succ hfuel
    obtain ⟨stop', hrest⟩ := ih hlt (st.push c) hfault hstray stop
    refine ⟨stop', ?_⟩
    rw [List.flatMap_cons, List.append_assoc, List.map_append, List.append_assoc, hstep, hrest]
    simp [StringState.push]

end Lexer
end ContractConversion.Json
