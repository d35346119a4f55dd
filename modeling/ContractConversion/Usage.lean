/-!
# Token usage

What a completion cost, in tokens. Usages add up part by part. The counts have 64 bits and wrap
around, as machine words do where nothing looks for an overflow.
-/

namespace ContractConversion

/-- Tokens read and written by a completion. -/
structure Usage where
  inputTokens : UInt64 := 0
  outputTokens : UInt64 := 0
  deriving DecidableEq, Repr, Inhabited

namespace Usage

/-- All tokens, again a number of 64 bits. -/
def total (u : Usage) : Nat :=
  (u.inputTokens + u.outputTokens).toNat

instance : Add Usage :=
  ⟨fun a b => ⟨a.inputTokens + b.inputTokens, a.outputTokens + b.outputTokens⟩⟩

@[simp] theorem inputTokens_add (a b : Usage) :
    (a + b).inputTokens = a.inputTokens + b.inputTokens := rfl

@[simp] theorem outputTokens_add (a b : Usage) :
    (a + b).outputTokens = a.outputTokens + b.outputTokens := rfl

end Usage

end ContractConversion
