import ContractConversion.Proofs.Json.Normal

/-!
# The pretty form is cut into the same tokens

Blanks between tokens are no tokens, and no number goes on with one. So the pretty form of a value,
whose line breaks and indentations are blanks, is cut into the tokens of the value like its compact
form (`Lexer.cuts_pretty`), and both are read alike.
-/

namespace ContractConversion.Json

open Text (Symbol)

namespace Lexer

/-! ## Blanks -/

/-- No number goes on with a blank. -/
lemma closed_of_isSpace {c : Char} (hc : isSpace c = true) (rest : List Symbol) :
    Closed (.char c :: rest) := by
  have hall : digit? (.char c) = none ∧ Symbol.char c ≠ .char '.' ∧ Symbol.char c ≠ .char 'e' ∧
      Symbol.char c ≠ .char 'E' := by
    simp only [isSpace, Bool.or_eq_true, beq_iff_eq] at hc
    rcases hc with ((rfl | rfl) | rfl) | rfl <;> decide
  exact hall

/-- A blank in front of tokens. -/
lemma Cuts.cons_space {c : Char} {cs : List Char} {ts : List Token} (h : Cuts cs ts)
    (hc : isSpace c = true) : Cuts (c :: cs) ts := by
  intro rest hrest fuel offset acc hfuel
  obtain ⟨fuel, rfl⟩ : ∃ k, fuel = k + 1 := ⟨fuel - 1, by omega⟩
  rw [List.map_cons, List.cons_append] at hfuel ⊢
  rw [run, if_pos hc]
  exact h rest hrest fuel (offset + 1) acc (Nat.lt_of_succ_lt_succ hfuel)

/-- The indentation of a line is blank. -/
lemma Cuts.indented {cs : List Char} {ts : List Token} (h : Cuts cs ts) (level : ℕ) :
    Cuts (Value.newline level ++ cs) ts := by
  have hspaces : ∀ n, Cuts (List.replicate n ' ' ++ cs) ts := by
    intro n
    induction n with
    | zero => exact h
    | succ n ih =>
      rw [List.replicate_succ, List.cons_append]
      exact ih.cons_space rfl
  exact (hspaces (2 * level)).cons_space rfl

/-- Tokens on a line of their own behind others. -/
lemma Cuts.append_indented {cs ds : List Char} {ts us : List Token} (h : Cuts cs ts)
    (h' : Cuts ds us) (level : ℕ) : Cuts (cs ++ (Value.newline level ++ ds)) (ts ++ us) :=
  h.append (h'.indented level) fun _ _ => closed_of_isSpace rfl _

/-- A key with what stands behind its colon and a blank. -/
lemma Cuts.spaced_member {k : String} {cs : List Char} {ts : List Token} (h : Cuts cs ts) :
    Cuts (quote k ++ ':' :: ' ' :: cs) (.str (.ok k) none :: .sign .colon :: ts) :=
  (h.cons_space rfl).member

/-! ## Values -/

mutual

/-- **The pretty form of a value is cut into the tokens of the value.** -/
theorem cuts_pretty : (v : Value) → (level : ℕ) → v.Integral → Cuts (v.prettyChars level) v.tokens
  | .null, _, _ => cuts_null
  | .bool b, _, _ => cuts_bool b
  | .num (.int _), _, h => cuts_int h
  | .str s, _, _ => cuts_quote s
  | .arr items, level, h => by
    have hitems := cuts_prettyItems items level (level + 1) h
    cases items with
    | nil => exact (cuts_nil.cons_sign rfl).cons_sign rfl
    | cons v rest =>
      rw [Value.prettyChars, List.cons_append, List.cons_append, List.append_assoc]
      exact hitems.cons_sign rfl
  | .obj members, level, h => by
    have hmembers := cuts_prettyMembers members level (level + 1) h
    cases members with
    | nil => exact (cuts_nil.cons_sign rfl).cons_sign rfl
    | cons m rest =>
      rw [Value.prettyChars, List.cons_append, List.cons_append, List.append_assoc]
      exact hmembers.cons_sign rfl

/-- Items up to the end of their array, which stands on a line of its own. -/
theorem cuts_prettyItems : (items : List Value) → (outer level : ℕ) → Value.IntegralItems items →
    Cuts (Value.prettyItems level items ++ (Value.newline outer ++ [']']))
      (Value.itemTokens items ++ [.sign .bracketClose])
  | [], outer, _, _ => (cuts_nil.cons_sign rfl).indented outer
  | [v], outer, level, h => by
    -- behind the last item, the line break closes a number in the place of a comma
    have hend : Cuts [']'] [.sign .bracketClose] := cuts_nil.cons_sign rfl
    have hall := ((cuts_pretty v level h.1).append_indented hend outer).indented level
    simpa [Value.prettyItems, Value.itemTokens, Value.furtherItemTokens] using hall
  | v :: w :: rest, outer, level, h => by
    have htail := cuts_prettyItems (w :: rest) outer level h.2
    have hall := ((cuts_pretty v level h.1).append_sign htail (c := ',') rfl).indented level
    simpa [Value.prettyItems, Value.itemTokens, Value.furtherItemTokens] using hall

/-- Members up to the end of their object, which stands on a line of its own. -/
theorem cuts_prettyMembers : (members : List (String × Value)) → (outer level : ℕ) →
    Value.IntegralMembers members →
    Cuts (Value.prettyMembers level members ++ (Value.newline outer ++ ['\x7d']))
      (Value.memberTokens members ++ [.sign .braceClose])
  | [], outer, _, _ => (cuts_nil.cons_sign rfl).indented outer
  | [(k, v)], outer, level, h => by
    have hend : Cuts ['\x7d'] [.sign .braceClose] := cuts_nil.cons_sign rfl
    have hvalue := (cuts_pretty v level h.1).append_indented hend outer
    have hall := (hvalue.spaced_member (k := k)).indented level
    simpa [Value.prettyMembers, Value.memberTokens, Value.furtherMemberTokens] using hall
  | (k, v) :: m :: rest, outer, level, h => by
    have htail := cuts_prettyMembers (m :: rest) outer level h.2
    have hvalue := (cuts_pretty v level h.1).append_sign htail (c := ',') rfl
    have hall := (hvalue.spaced_member (k := k)).indented level
    simpa [Value.prettyMembers, Value.memberTokens, Value.furtherMemberTokens] using hall

end

end Lexer

end ContractConversion.Json
