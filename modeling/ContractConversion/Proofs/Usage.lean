import ContractConversion.Usage
import Mathlib.Algebra.GroupWithZero.Nat

/-!
# Sums of usages

Usages that are added one after the other give the sums of their counts, up to multiples of
`2 ^ 64` that the counts have no room for (`Usage.isSum_foldl`). Sums below `2 ^ 64` are exact.
-/

namespace ContractConversion.Usage

/-- The counts of `u` are the sums of the counts of `parts`, as numbers of 64 bits. -/
structure IsSum (u : Usage) (parts : List Usage) : Prop where
  input : u.inputTokens.toNat = (parts.map (·.inputTokens.toNat)).sum % 2 ^ 64
  output : u.outputTokens.toNat = (parts.map (·.outputTokens.toNat)).sum % 2 ^ 64

variable {u : Usage} {parts : List Usage}

@[simp] theorem add_zero (u : Usage) : u + {} = u := by
  cases u
  exact congr (congrArg Usage.mk (UInt64.add_zero _)) (UInt64.add_zero _)

theorem isSum_nil : ({} : Usage).IsSum [] :=
  ⟨rfl, rfl⟩

/-- One more usage is added. -/
theorem IsSum.concat (h : u.IsSum parts) (v : Usage) : (u + v).IsSum (parts ++ [v]) := by
  constructor
  · rw [inputTokens_add, UInt64.toNat_add, h.input, Nat.mod_add_mod]
    simp
  · rw [outputTokens_add, UInt64.toNat_add, h.output, Nat.mod_add_mod]
    simp

theorem IsSum.foldl (h : u.IsSum parts) (more : List Usage) :
    (more.foldl (· + ·) u).IsSum (parts ++ more) := by
  -- the start of the fold is generalised: it has the parts that were added before
  induction more generalizing u parts with
  | nil => rwa [List.append_nil]
  | cons v more ih =>
    rw [List.foldl_cons, List.append_cons]
    exact ih (h.concat v)

/-- **Usages add up.** However many usages are added, each count of the whole is the sum of the
counts of the parts, up to multiples of `2 ^ 64`. -/
theorem isSum_foldl (parts : List Usage) : IsSum (parts.foldl (· + ·) {}) parts :=
  isSum_nil.foldl parts

end ContractConversion.Usage
