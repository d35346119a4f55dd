import ContractConversion.Proofs.Json.Literal
import Mathlib.Data.Int.Notation

/-!
# Written values are cut into their tokens

`Value.tokens` are the tokens that a value is written with. The lexer cuts the compact form of a
value into exactly these, wherever they stand in a text (`Cuts`), if all numbers of the value are
integers of 64 bits (`Value.Integral`).
-/

namespace ContractConversion.Json

open Text (Symbol)

namespace Value

mutual

/-- All numbers of the value are integers of 64 bits. -/
def Integral : Value → Prop
  | .num n => n.Fits
  | .arr items => IntegralItems items
  | .obj members => IntegralMembers members
  | _ => True

/-- All numbers of the items are integers of 64 bits. -/
def IntegralItems : List Value → Prop
  | [] => True
  | v :: rest => Integral v ∧ IntegralItems rest

/-- All numbers of the members are integers of 64 bits. -/
def IntegralMembers : List (String × Value) → Prop
  | [] => True
  | (_, v) :: rest => Integral v ∧ IntegralMembers rest

end

lemma integralItems_iff {items : List Value} :
    IntegralItems items ↔ ∀ v ∈ items, v.Integral := by
  induction items with
  | nil => simp [IntegralItems]
  | cons v rest ih => simp [IntegralItems, ih]

mutual

/-- The tokens of a value. -/
def tokens : Value → List Token
  | .null => [.null]
  | .bool b => [.bool b]
  | .num n => [.num (.ok n) none]
  | .str s => [.str (.ok s) none]
  | .arr items => .sign .bracketOpen :: (itemTokens items ++ [.sign .bracketClose])
  | .obj members => .sign .braceOpen :: (memberTokens members ++ [.sign .braceClose])

/-- The tokens of items, with commas between them. -/
def itemTokens : List Value → List Token
  | [] => []
  | v :: rest => tokens v ++ furtherItemTokens rest

/-- The tokens of items behind others. -/
def furtherItemTokens : List Value → List Token
  | [] => []
  | v :: rest => .sign .comma :: (tokens v ++ furtherItemTokens rest)

/-- The tokens of members, with commas between them. -/
def memberTokens : List (String × Value) → List Token
  | [] => []
  | (k, v) :: rest => .str (.ok k) none :: .sign .colon :: (tokens v ++ furtherMemberTokens rest)

/-- The tokens of members behind others. -/
def furtherMemberTokens : List (String × Value) → List Token
  | [] => []
  | (k, v) :: rest =>
    .sign .comma :: .str (.ok k) none :: .sign .colon :: (tokens v ++ furtherMemberTokens rest)

end

end Value

namespace Lexer

/-! ## Texts with known tokens -/

/-- The characters are cut into these tokens in front of anything that no number goes on with, and
the lexer goes on behind them. -/
def Cuts (cs : List Char) (tokens : List Token) : Prop :=
  ∀ (rest : List Symbol), Closed rest →
    ∀ fuel offset acc, (cs.map Symbol.char ++ rest).length < fuel →
    ∃ (found : List Lexeme) (fuel' offset' : ℕ),
      found.map Lexeme.token = tokens ∧ rest.length < fuel' ∧
      run fuel offset (cs.map .char ++ rest) acc = run fuel' offset' rest (found.reverse ++ acc)

lemma cuts_nil : Cuts [] [] :=
  fun _ _ fuel offset _ hfuel => ⟨[], fuel, offset, rfl, hfuel, rfl⟩

/-- A token that starts with `c` and ends where the characters end. -/
lemma cuts_token {c : Char} {cs : List Char} {t : Token} (hspace : isSpace c = false)
    (h : ∀ rest, Closed rest → ∀ offset, ∃ stop,
      token c offset (cs.map .char ++ rest) = (t, rest, stop)) : Cuts (c :: cs) [t] := by
  intro rest hrest fuel offset acc hfuel
  obtain ⟨stop, htoken⟩ := h rest hrest offset
  obtain ⟨fuel, rfl⟩ : ∃ k, fuel = k + 1 := ⟨fuel - 1, by omega⟩
  refine ⟨[⟨t, offset, stop⟩], fuel, stop, rfl, ?_, ?_⟩
  · simp only [List.map_cons, List.cons_append, List.length_cons, List.length_append] at hfuel
    omega
  · rw [List.map_cons, List.cons_append, run, hspace, htoken]
    rfl

/-- Tokens behind one another, if no number at the end of the first goes on in the second. -/
lemma Cuts.append {cs ds : List Char} {ts us : List Token} (h : Cuts cs ts) (h' : Cuts ds us)
    (hclosed : ∀ rest, Closed rest → Closed (ds.map .char ++ rest)) :
    Cuts (cs ++ ds) (ts ++ us) := by
  intro rest hrest fuel offset acc hfuel
  rw [List.map_append, List.append_assoc] at hfuel ⊢
  obtain ⟨found, fuel₁, offset₁, rfl, hfuel₁, hrun₁⟩ := h _ (hclosed rest hrest) _ offset acc hfuel
  obtain ⟨found', fuel₂, offset₂, rfl, hfuel₂, hrun₂⟩ :=
    h' rest hrest fuel₁ offset₁ (found.reverse ++ acc) hfuel₁
  refine ⟨found ++ found', fuel₂, offset₂, List.map_append, hfuel₂, ?_⟩
  rw [hrun₁, hrun₂, List.reverse_append, List.append_assoc]

lemma token_sign {c : Char} {s : Sign} (h : sign? c = some s) (offset : ℕ) (rest : List Symbol) :
    token c offset rest = (.sign s, rest, offset + 1) := by
  rw [token, h]

/-- The characters of signs. -/
lemma sign?_eq_some {c : Char} {s : Sign} (h : sign? c = some s) :
    c = '\x7b' ∨ c = '\x7d' ∨ c = '[' ∨ c = ']' ∨ c = ':' ∨ c = ',' := by
  unfold sign? at h
  split at h <;> simp_all

/-- A sign is no blank, and no number goes on with it. -/
lemma sign_closes {c : Char} {s : Sign} (h : sign? c = some s) (rest : List Symbol) :
    isSpace c = false ∧ Closed (.char c :: rest) := by
  have hall : isSpace c = false ∧ digit? (.char c) = none ∧ Symbol.char c ≠ .char '.' ∧
      Symbol.char c ≠ .char 'e' ∧ Symbol.char c ≠ .char 'E' := by
    rcases sign?_eq_some h with rfl | rfl | rfl | rfl | rfl | rfl <;> decide
  exact hall

/-- A sign in front of anything. -/
lemma Cuts.cons_sign {c : Char} {s : Sign} {cs : List Char} {ts : List Token} (h : Cuts cs ts)
    (hc : sign? c = some s) : Cuts (c :: cs) (.sign s :: ts) := by
  intro rest hrest fuel offset acc hfuel
  obtain ⟨fuel, rfl⟩ : ∃ k, fuel = k + 1 := ⟨fuel - 1, by omega⟩
  rw [List.map_cons, List.cons_append] at hfuel ⊢
  obtain ⟨found, fuel', offset', htokens, hfuel', hrun⟩ :=
    h rest hrest fuel (offset + 1) (⟨.sign s, offset, offset + 1⟩ :: acc)
      (Nat.lt_of_succ_lt_succ hfuel)
  refine ⟨⟨.sign s, offset, offset + 1⟩ :: found, fuel', offset', ?_, hfuel', ?_⟩
  · rw [List.map_cons, htokens]
  · rw [run, (sign_closes hc []).1, token_sign hc]
    dsimp only
    rw [if_neg (by simp), hrun, List.reverse_cons, List.append_assoc, List.singleton_append]

/-- A sign behind tokens. -/
lemma Cuts.append_sign {c : Char} {s : Sign} {cs ds : List Char} {ts us : List Token}
    (h : Cuts cs ts) (h' : Cuts ds us) (hc : sign? c = some s) :
    Cuts (cs ++ c :: ds) (ts ++ .sign s :: us) :=
  h.append (h'.cons_sign hc) fun _ _ => (sign_closes hc _).2

/-! ## Scalars -/

lemma cuts_quote (s : String) : Cuts (quote s) [.str (.ok s) none] := by
  have hquote : quote s = '"' :: (s.toList.flatMap escape ++ ['"']) := rfl
  rw [hquote]
  refine cuts_token rfl fun rest _ offset => ?_
  have hlength : ∀ cs : List Char, cs.length ≤ (cs.flatMap escape).length := by
    intro cs
    induction cs with
    | nil => exact Nat.le_refl 0
    | cons c cs ih =>
      have hpos : 0 < (escape c).length := by
        unfold escape
        split <;> first | exact Nat.succ_pos _ | (split <;> exact Nat.succ_pos _)
      rw [List.flatMap_cons, List.length_append, List.length_cons]
      omega
  have hfuel : s.toList.length <
      ((s.toList.flatMap escape ++ ['"']).map Symbol.char ++ rest).length + 1 := by
    have := hlength s.toList
    simp only [List.length_append, List.length_map, List.length_cons, List.length_nil]
    omega
  obtain ⟨stop, hstring⟩ := string_quoted s.toList hfuel ⟨[], none, false⟩ rfl rfl
    (offset + 1) rest
  refine ⟨stop, ?_⟩
  have hofList : String.ofList ([].reverse ++ s.toList) = s := by
    rw [List.reverse_nil, List.nil_append, String.ofList_toList]
  rw [hofList] at hstring
  exact hstring

/-- A digit starts a number. -/
lemma token_digit {c : Char} (h : c.isDigit = true) (offset : ℕ) (rest : List Symbol) :
    token c offset rest = number false offset (.char c :: rest) := by
  have hsign : sign? c = none := by
    cases hc : sign? c with
    | none => rfl
    | some s =>
      rcases sign?_eq_some hc with rfl | rfl | rfl | rfl | rfl | rfl <;> exact absurd h (by decide)
  have hne : ∀ d : Char, d.isDigit = false → c ≠ d := by
    rintro d hd rfl
    exact absurd h (by simp [hd])
  have hdigit : '0' ≤ c ∧ c ≤ '9' := by
    simpa [Char.isDigit, Char.le_def, UInt32.le_iff_toNat_le] using h
  rw [token, hsign]
  dsimp only
  rw [if_neg (hne '"' rfl), if_neg (hne 'n' rfl), if_neg (hne 't' rfl), if_neg (hne 'f' rfl),
    if_neg (hne '-' rfl), if_pos hdigit]

lemma isSpace_of_isDigit {c : Char} (h : c.isDigit = true) : isSpace c = false := by
  cases hspace : isSpace c with
  | false => rfl
  | true =>
    simp only [isSpace, Bool.or_eq_true, beq_iff_eq] at hspace
    rcases hspace with ((rfl | rfl) | rfl) | rfl <;> exact absurd h (by decide)

/-- An integer of 64 bits is cut into one token. -/
lemma cuts_int {n : ℤ} (h : (Number.int n).Fits) :
    Cuts (Number.intText n) [.num (.ok (.int n)) none] := by
  cases n with
  | ofNat n =>
    obtain ⟨c, tail, hshape, -⟩ := toDigits_shape n
    have hdigit : c.isDigit = true :=
      Nat.isDigit_of_mem_toDigits (by omega) (by omega) (hshape ▸ List.mem_cons_self)
    rw [Number.intText, hshape]
    refine cuts_token (isSpace_of_isDigit hdigit) fun rest hrest offset => ?_
    rw [token_digit hdigit, ← List.cons_append, ← List.map_cons, ← hshape]
    have hlt : (n : ℤ) < 2 ^ 64 := h.2
    exact number_toDigits (by omega) hrest false offset
  | negSucc n =>
    have hinteger : Number.ofInteger (n + 1) true = .int (Int.negSucc n) := by
      have hsmall : ¬ (n + 1 = 0 ∨ Nat.pow 2 63 < n + 1) := by
        have := h.1
        rw [Nat.pow_eq]
        omega
      rw [Number.ofInteger, if_pos rfl, if_neg hsmall]
      rfl
    refine cuts_token rfl fun rest hrest offset => ?_
    have hlt : n + 1 < 2 ^ 64 := by
      have := h.1
      omega
    rw [← hinteger]
    exact number_toDigits hlt hrest true (offset + 1)

/-! ## Values -/

/-- A word is cut into one token. -/
lemma cuts_null : Cuts ['n', 'u', 'l', 'l'] [.null] :=
  cuts_token rfl fun _ _ _ => ⟨_, rfl⟩

lemma cuts_bool (b : Bool) : Cuts (Value.bool b).compactChars [.bool b] := by
  cases b with
  | false =>
    have hword : Cuts ['f', 'a', 'l', 's', 'e'] [.bool false] :=
      cuts_token rfl fun _ _ _ => ⟨_, rfl⟩
    exact hword
  | true =>
    have hword : Cuts ['t', 'r', 'u', 'e'] [.bool true] := cuts_token rfl fun _ _ _ => ⟨_, rfl⟩
    exact hword

/-- A key with what stands behind its colon. -/
lemma Cuts.member {k : String} {cs : List Char} {ts : List Token} (h : Cuts cs ts) :
    Cuts (quote k ++ ':' :: cs) (.str (.ok k) none :: .sign .colon :: ts) :=
  (cuts_quote k).append_sign h rfl

mutual

/-- **The compact form of a value is cut into the tokens of the value.** -/
theorem cuts_compact : (v : Value) → v.Integral → Cuts v.compactChars v.tokens
  | .null, _ => cuts_null
  | .bool b, _ => cuts_bool b
  | .num (.int _), h => cuts_int h
  | .str s, _ => cuts_quote s
  | .arr items, h => (cuts_items items h).cons_sign rfl
  | .obj members, h => (cuts_members members h).cons_sign rfl

/-- Items up to the end of their array. -/
theorem cuts_items : (items : List Value) → Value.IntegralItems items →
    Cuts (Value.compactItems items ++ [']']) (Value.itemTokens items ++ [.sign .bracketClose])
  | [], _ => cuts_nil.cons_sign rfl
  | [v], h => by
    have hall := (cuts_compact v h.1).append_sign cuts_nil (c := ']') rfl
    simpa [Value.compactItems, Value.itemTokens, Value.furtherItemTokens] using hall
  | v :: w :: rest, h => by
    have htail := cuts_items (w :: rest) h.2
    have hall := (cuts_compact v h.1).append_sign htail (c := ',') rfl
    simpa [Value.compactItems, Value.itemTokens, Value.furtherItemTokens] using hall

/-- Members up to the end of their object. -/
theorem cuts_members : (members : List (String × Value)) → Value.IntegralMembers members →
    Cuts (Value.compactMembers members ++ ['\x7d'])
      (Value.memberTokens members ++ [.sign .braceClose])
  | [], _ => cuts_nil.cons_sign rfl
  | [(k, v)], h => by
    have hall := ((cuts_compact v h.1).append_sign cuts_nil (c := '\x7d') rfl).member (k := k)
    simpa [Value.compactMembers, Value.memberTokens, Value.furtherMemberTokens] using hall
  | (k, v) :: m :: rest, h => by
    have htail := cuts_members (m :: rest) h.2
    have hall := ((cuts_compact v h.1).append_sign htail (c := ',') rfl).member (k := k)
    simpa [Value.compactMembers, Value.memberTokens, Value.furtherMemberTokens] using hall

end

end Lexer

/-- The lexemes of a text that is cut into tokens are these and the end of the text. -/
theorem lexemes_of_cuts {cs : List Char} {tokens : List Token} (h : Lexer.Cuts cs tokens) :
    ∃ found stop, found.map Lexeme.token = tokens ∧
      lexemes (cs.map .char) = found ++ [⟨.finish, stop, stop⟩] := by
  obtain ⟨found, fuel, stop, htokens, hfuel, hrun⟩ := h [] trivial
    ((cs.map Symbol.char).length + 1) 0 [] (by rw [List.append_nil]; omega)
  obtain ⟨fuel, rfl⟩ : ∃ k, fuel = k + 1 := ⟨fuel - 1, by simp at hfuel; omega⟩
  refine ⟨found, stop, htokens, ?_⟩
  rw [List.append_nil, List.append_nil] at hrun
  rw [lexemes, hrun, Lexer.run, List.reverse_cons, List.reverse_reverse]

end ContractConversion.Json
