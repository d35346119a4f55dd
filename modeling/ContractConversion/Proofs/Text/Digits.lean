import ContractConversion.Text.Digits
import Mathlib.Algebra.Group.Nat.Defs
import Mathlib.Data.List.Induction
import Mathlib.Tactic.Lemma

/-!
# Numbers are read from their digits

A digit is read as the number that it was written for, and so are the digits of a number in base ten
(`valueIn_toDigits`), also behind zeros (`valueIn_replicate`).
-/

namespace ContractConversion.Text

lemma hexValue?_digitChar (d : Fin 16) : hexValue? (Nat.digitChar d.val) = some d := by
  revert d
  decide

section

variable {c : Char} {ds : List Char}

/-- The digits of base ten stand one after the other. -/
lemma toNat_of_isDigit (h : c.isDigit = true) : 48 ≤ c.toNat ∧ c.toNat ≤ 57 := by
  simpa [Char.isDigit, UInt32.le_iff_toNat_le] using h

lemma isDigit_of_mem_toDigits {n : ℕ} (h : c ∈ Nat.toDigits 10 n) : c.isDigit = true :=
  Nat.isDigit_of_mem_toDigits (b := 10) (by decide) (by decide) h

lemma digitValue_of_isDigit (h : c.isDigit = true) : digitValue c = c.toNat - 48 := by
  have hrange := toNat_of_isDigit h
  rw [digitValue, hexValue?, if_pos h, Option.getD_some, Fin.val_ofNat]
  omega

lemma digitValue_le (h : c.isDigit = true) : digitValue c ≤ 9 := by
  have hrange := toNat_of_isDigit h
  rw [digitValue_of_isDigit h]
  omega

lemma valueIn_append (base : ℕ) (ds es : List Char) :
    valueIn base (ds ++ es) = es.foldl (fun n c => n * base + digitValue c) (valueIn base ds) := by
  rw [valueIn, List.foldl_append, ← valueIn]

/-- One more digit moves the others up by a place. -/
lemma valueIn_concat (base : ℕ) (ds : List Char) (c : Char) :
    valueIn base (ds ++ [c]) = valueIn base ds * base + digitValue c := by
  rw [valueIn_append]
  rfl

/-- Zeros in front do not count. -/
lemma valueIn_replicate (base k : ℕ) : valueIn base (List.replicate k '0') = 0 := by
  induction k with
  | zero => rfl
  | succ k ih =>
    rw [List.replicate_succ', valueIn_concat, ih, Nat.zero_mul]
    rfl

/-- **The digits of a number are read as it.** -/
lemma valueIn_toDigits (n : ℕ) : valueIn 10 (Nat.toDigits 10 n) = n := by
  have hfold : ∀ (ds : List Char) (m : ℕ), (∀ c ∈ ds, c.isDigit = true) →
      ds.foldl (fun m c => m * 10 + digitValue c) m = Nat.ofDigitChars 10 ds m := by
    intro ds
    induction ds with
    | nil => exact fun m _ => rfl
    | cons c ds ih =>
      intro m hds
      obtain ⟨hc, hrest⟩ := List.forall_mem_cons.mp hds
      rw [List.foldl_cons, ih _ hrest, digitValue_of_isDigit hc, Nat.mul_comm]
      rfl
  rw [valueIn, hfold _ _ fun c => isDigit_of_mem_toDigits, Nat.ofDigitChars_ten_toDigits]

/-- Digits write a number with no more places than there are digits. -/
lemma valueIn_lt (h : ∀ c ∈ ds, c.isDigit = true) : valueIn 10 ds < 10 ^ ds.length := by
  induction ds using List.reverseRecOn with
  | nil => exact Nat.one_pos
  | append_singleton ds c ih =>
    have hds := ih fun d hd => h d (List.mem_append_left _ hd)
    have hc : digitValue c ≤ 9 := digitValue_le (h c (List.mem_append_right _ List.mem_cons_self))
    rw [valueIn_concat, List.length_append, List.length_singleton, Nat.pow_succ]
    omega

end

end ContractConversion.Text
