import ContractConversion.Proofs.Json.Literal

/-!
# No spelling of a string hides a backtick

A string can be spelled with different escapes. Backticks, backslashes and letters `u` are the marks
of a text: where it has no backtick for one of the string, it has an escape with a backslash and a
letter. So the tokens of a text need at most the marks of the text to be written
(`lexemeMarks_lexemes`), whatever the text looks like.
-/

namespace ContractConversion.Json

open Text (Symbol)

/-- A backtick, or a part of an escape of one. -/
def isMark : Symbol → Bool
  | .char c => c == '`' || c == '\\' || c == 'u'
  | .stray _ => false

/-- The number of marks of a text. -/
def marks (input : List Symbol) : ℕ :=
  input.countP isMark

lemma marks_nil : marks [] = 0 := rfl

lemma marks_append (input rest : List Symbol) : marks (input ++ rest) = marks input + marks rest :=
  List.countP_append

lemma marks_cons (s : Symbol) (rest : List Symbol) : marks (s :: rest) = marks [s] + marks rest :=
  marks_append [s] rest

lemma marks_slash (rest : List Symbol) : marks (.char '\\' :: rest) = 1 + marks rest :=
  marks_cons _ rest

/-- An escape by a number has two marks. -/
lemma marks_numbered (rest : List Symbol) :
    marks (.char '\\' :: .char 'u' :: rest) = 2 + marks rest := by
  rw [marks_slash, marks_cons, ← Nat.add_assoc]
  rfl

/-- What stands at the end of a text has no marks more. -/
lemma marks_le_of_suffix {rest input : List Symbol} (h : rest <:+ input) :
    marks rest ≤ marks input :=
  h.sublist.countP_le

/-! ## Strings and lexemes -/

/-- The number of marks of the written form of a character in a string. -/
def escapeMarks (c : Char) : ℕ :=
  marks ((escape c).map .char)

/-- The number of marks of characters in a string. -/
def stringMarks : List Char → ℕ
  | [] => 0
  | c :: cs => escapeMarks c + stringMarks cs

lemma stringMarks_append (cs ds : List Char) :
    stringMarks (cs ++ ds) = stringMarks cs + stringMarks ds := by
  induction cs with
  | nil => exact (Nat.zero_add _).symm
  | cons c cs ih => rw [List.cons_append, stringMarks, stringMarks, ih, Nat.add_assoc]

lemma stringMarks_reverse (cs : List Char) : stringMarks cs.reverse = stringMarks cs := by
  induction cs with
  | nil => rfl
  | cons c cs ih =>
    rw [List.reverse_cons, stringMarks_append, ih, Nat.add_comm]
    rfl

/-- The number of marks that are needed to write a string that was read. -/
def readMarks : Except Fault String → ℕ
  | .ok s => stringMarks s.toList
  | .error _ => 0

/-- The number of marks that are needed to write the token. -/
def Token.marks : Token → ℕ
  | .null => 1
  | .bool b => if b then 1 else 0
  | .str read _ => readMarks read
  | _ => 0

/-- The number of marks that are needed to write the lexemes. -/
def lexemeMarks : List Lexeme → ℕ
  | [] => 0
  | l :: ls => l.token.marks + lexemeMarks ls

lemma lexemeMarks_append (ls ms : List Lexeme) :
    lexemeMarks (ls ++ ms) = lexemeMarks ls + lexemeMarks ms := by
  induction ls with
  | nil => exact (Nat.zero_add _).symm
  | cons l ls ih => rw [List.cons_append, lexemeMarks, lexemeMarks, ih, Nat.add_assoc]

lemma lexemeMarks_reverse (ls : List Lexeme) : lexemeMarks ls.reverse = lexemeMarks ls := by
  induction ls with
  | nil => rfl
  | cons l ls ih =>
    rw [List.reverse_cons, lexemeMarks_append, ih, Nat.add_comm]
    rfl

namespace Lexer

/-! ## Numbers and words -/

lemma digits_suffix (input : List Symbol) (acc : List Char) : (digits input acc).2 <:+ input := by
  induction input generalizing acc with
  | nil => exact List.suffix_rfl
  | cons s rest ih =>
    rw [digits]
    split
    · exact (ih _).trans (List.suffix_cons s rest)
    · exact List.suffix_rfl

/-- The token has no marks, and what is left of the text is its end. -/
def Unmarked (input : List Symbol) (result : Token × List Symbol × ℕ) : Prop :=
  result.1.marks = 0 ∧ result.2.1 <:+ input

lemma unmarked_missingDigit (offset stop : ℕ) (input : List Symbol) :
    Unmarked input ((missingDigit offset input).1, (missingDigit offset input).2, stop) := by
  cases input with
  | nil => exact ⟨rfl, List.suffix_rfl⟩
  | cons s rest => exact ⟨rfl, List.suffix_rfl⟩

lemma Unmarked.of_suffix {rest input : List Symbol} {result : Token × List Symbol × ℕ}
    (h : Unmarked rest result) (hrest : rest <:+ input) : Unmarked input result :=
  ⟨h.1, h.2.trans hrest⟩

lemma unmarked_exponent (d : Number.Draft) (negative : Bool) (offset : ℕ) (input : List Symbol) :
    Unmarked input (exponent d negative offset input) := by
  unfold exponent
  dsimp only
  generalize hsigned : (if startsWith '-' input ∨ startsWith '+' input then
    (input.drop 1, offset + 1) else (input, offset)) = signed
  have hrest : signed.1 <:+ input := by
    rw [← hsigned]
    split
    · exact List.drop_suffix 1 input
    · exact List.suffix_rfl
  split
  · exact (unmarked_missingDigit _ _ _).of_suffix hrest
  · exact ⟨rfl, (digits_suffix _ _).trans hrest⟩

lemma unmarked_afterWhole (d : Number.Draft) (negative : Bool) (offset : ℕ) (input : List Symbol) :
    Unmarked input (afterWhole d negative offset input) := by
  have hdrop := List.drop_suffix 1 input
  have hdigits := (digits_suffix (input.drop 1) []).trans hdrop
  unfold afterWhole
  dsimp only
  split
  · split
    · exact (unmarked_missingDigit _ _ _).of_suffix hdrop
    · split
      · exact (unmarked_exponent _ _ _ _).of_suffix ((List.drop_suffix 1 _).trans hdigits)
      · exact ⟨rfl, hdigits⟩
  · split
    · exact (unmarked_exponent _ _ _ _).of_suffix hdrop
    · exact ⟨rfl, List.suffix_rfl⟩

/-- No number has marks. -/
lemma unmarked_number (negative : Bool) (offset : ℕ) (input : List Symbol) :
    Unmarked input (number negative offset input) := by
  have hdigits := digits_suffix input []
  unfold number
  dsimp only
  split
  · exact unmarked_missingDigit _ _ _
  · exact ⟨rfl, hdigits⟩
  · exact (unmarked_afterWhole _ _ _ _).of_suffix hdigits

/-- The token needs at most `n` marks together with what is left of the text. -/
def Marked (n : ℕ) (result : Token × List Symbol × ℕ) : Prop :=
  result.1.marks + marks result.2.1 ≤ n

lemma Marked.mono {m n : ℕ} {result : Token × List Symbol × ℕ} (h : Marked m result)
    (hle : m ≤ n) : Marked n result :=
  Nat.le_trans h hle

lemma Unmarked.marked {input : List Symbol} {result : Token × List Symbol × ℕ}
    (h : Unmarked input result) : Marked (marks input) result := by
  unfold Marked
  rw [h.1, Nat.zero_add]
  exact marks_le_of_suffix h.2

/-- A word has the marks of its letters, or it is none. -/
lemma marked_word {t : Token} {letters : List Char} {n : ℕ}
    (h : t.marks ≤ n + marks (letters.map .char)) (offset : ℕ) (input : List Symbol) :
    Marked (n + marks input) (word t offset letters input) := by
  induction letters generalizing n offset input with
  | nil =>
    rw [word]
    have hn : t.marks ≤ n := h
    exact Nat.add_le_add_right hn _
  | cons c letters ih =>
    cases input with
    | nil => exact Nat.zero_le _
    | cons s rest =>
      rw [word]
      split
      · next hs =>
        subst hs
        rw [List.map_cons, marks_cons, ← Nat.add_assoc] at h
        rw [marks_cons, ← Nat.add_assoc]
        exact ih h _ _
      · exact Nat.zero_le _

/-! ## Strings -/

/-- No character needs more marks than an escape by its number has. -/
lemma escapeMarks_le_two (c : Char) : escapeMarks c ≤ 2 := by
  have hcontrol : ∀ n < 0x20, escapeMarks (Char.ofNat n) ≤ 2 := by decide
  by_cases hc : c.toNat < 0x20
  · have hle := hcontrol c.toNat hc
    rwa [Char.ofNat_toNat] at hle
  · have hlength : (escape c).length ≤ 2 := by
      unfold escape
      split
      case h_8 =>
        rw [if_neg hc]
        exact Nat.le_succ 1
      all_goals decide
    calc escapeMarks c ≤ ((escape c).map Symbol.char).length := List.countP_le_length
      _ = (escape c).length := List.length_map _
      _ ≤ 2 := hlength

/-- A character that is not escaped has its own marks only. -/
lemma escapeMarks_of_plain {c : Char} (hcontrol : ¬ c.toNat < 0x20) (hquote : c ≠ '"')
    (hslash : c ≠ '\\') : escapeMarks c = marks [.char c] := by
  have hescape : escape c = [c] := by
    unfold escape
    split
    case h_1 => exact absurd rfl hquote
    case h_2 => exact absurd rfl hslash
    case h_8 => rw [if_neg hcontrol]
    all_goals exact absurd (by decide) hcontrol
  rw [escapeMarks, hescape]
  rfl

/-- An escape by a letter has at least the marks that its character needs. -/
lemma escapeMarks_of_simpleEscape? {c d : Char} (h : simpleEscape? c = some d) :
    escapeMarks d ≤ 1 + marks [.char c] := by
  unfold simpleEscape? at h
  split at h
  case h_9 => cases h
  all_goals
    obtain rfl := Option.some.inj h
    decide

lemma hexEscape_suffix {offset : ℕ} {input rest : List Symbol} {n : ℕ}
    (h : hexEscape offset input = .ok (n, rest)) : rest <:+ input := by
  unfold hexEscape at h
  split at h
  · next a b c d tail =>
    split at h
    · obtain ⟨-, rfl⟩ := Prod.mk.inj (Except.ok.inj h)
      exact List.suffix_append [a, b, c, d] tail
    · cases h
  · dsimp only at h
    split at h <;> cases h

/-- The second half of a pair of escapes has two marks of its own. -/
lemma marks_of_trailEscape {lead offset : ℕ} {input rest : List Symbol} {c : Char}
    (h : trailEscape lead offset input = .ok (c, rest)) : 2 + marks rest ≤ marks input := by
  unfold trailEscape at h
  split at h
  · cases h
  · split at h
    · cases h
    · next hslash =>
      split at h
      · cases h
      · split at h
        · cases h
        · next hu =>
          split at h
          · cases h
          · next hhex =>
            split at h
            · cases h
            · obtain ⟨-, rfl⟩ := Prod.mk.inj (Except.ok.inj h)
              rw [Decidable.not_not.mp hslash, Decidable.not_not.mp hu, marks_numbered]
              exact Nat.add_le_add_left (marks_le_of_suffix (hexEscape_suffix hhex)) 2

/-- A string that ends needs at most the marks of its characters. -/
lemma readMarks_close_le (st : StringState) (stop : ℕ) :
    readMarks (st.close stop) ≤ stringMarks st.chars := by
  unfold StringState.close
  split
  · exact Nat.zero_le _
  · split
    · exact Nat.zero_le _
    · exact Nat.le_of_eq (by rw [readMarks, String.toList_ofList, stringMarks_reverse])

/-- **A string has at least the marks that it needs to be written**, whatever its escapes are. -/
lemma marked_string (fuel : ℕ) (st : StringState) (offset : ℕ) (input : List Symbol) :
    Marked (stringMarks st.chars + marks input) (string fuel st offset input) := by
  induction fuel generalizing st offset input with
  | zero => exact Nat.zero_le _
  | succ fuel ih =>
    -- a round takes what its character needs, or it takes none
    have hpush : ∀ c offset rest n, escapeMarks c + marks rest ≤ n →
        Marked (stringMarks st.chars + n) (string fuel (st.push c) offset rest) := by
      intro c offset rest n h
      refine (ih (st.push c) offset rest).mono ?_
      rw [StringState.push, stringMarks]
      omega
    have hblame : ∀ fault offset rest n, marks rest ≤ n →
        Marked (stringMarks st.chars + n) (string fuel (st.blame fault) offset rest) :=
      fun fault offset rest n h => (ih (st.blame fault) offset rest).mono (Nat.add_le_add_left h _)
    unfold string
    split
    · exact Nat.zero_le _
    · next bytes rest =>
      exact ih { st with stray := true } _ rest
    · next rest =>
      have hrest := marks_le_of_suffix (List.suffix_cons (Symbol.char '"') rest)
      exact Nat.add_le_add (readMarks_close_le st _) hrest
    · exact Nat.zero_le _
    · next rest =>
      rw [marks_numbered]
      split
      · exact Nat.zero_le _
      · next n rest' hhex =>
        have hrest := marks_le_of_suffix (hexEscape_suffix hhex)
        split
        · have := escapeMarks_le_two (Char.ofNat n)
          exact hpush _ _ _ _ (by omega)
        · split
          · exact hblame _ _ _ _ (by omega)
          · split
            · next c rest'' htrail =>
              have := escapeMarks_le_two c
              have := marks_of_trailEscape htrail
              exact hpush _ _ _ _ (by omega)
            · exact hblame _ _ _ _ (by omega)
    · next c rest _ =>
      rw [marks_slash, marks_cons]
      split
      · next d hd =>
        have := escapeMarks_of_simpleEscape? hd
        exact hpush _ _ _ _ (by omega)
      · exact Nat.zero_le _
    · exact Nat.zero_le _
    · next c rest hquote hnil hescape hletter hstray =>
      split
      · exact Nat.zero_le _
      · next hcontrol =>
        have hne : c ≠ '\\' := by
          rintro rfl
          cases rest with
          | nil => exact hnil rfl rfl
          | cons s tail =>
            cases s with
            | char d => exact hletter d tail rfl rfl
            | stray bytes => exact hstray bytes tail rfl rfl
        rw [marks_cons]
        exact hpush _ _ _ _ (Nat.le_of_eq (by rw [escapeMarks_of_plain hcontrol hquote hne]))

/-! ## Texts -/

/-- **A token has at least the marks that it needs to be written.** -/
lemma marked_token (c : Char) (offset : ℕ) (rest : List Symbol) :
    Marked (marks (.char c :: rest)) (token c offset rest) := by
  have hsuffix : rest <:+ .char c :: rest := List.suffix_cons _ rest
  have hrest := marks_le_of_suffix hsuffix
  have hword : ∀ (t : Token) (letters : List Char), t.marks ≤ 0 + marks (letters.map .char) →
      Marked (marks (.char c :: rest)) (word t (offset + 1) letters rest) := by
    intro t letters h
    have hletters := marked_word h (offset + 1) rest
    rw [Nat.zero_add] at hletters
    exact hletters.mono hrest
  unfold token
  split
  · exact Unmarked.marked ⟨rfl, hsuffix⟩
  · split
    · have hstring := marked_string (rest.length + 1) ⟨[], none, false⟩ (offset + 1) rest
      rw [stringMarks, Nat.zero_add] at hstring
      exact hstring.mono hrest
    · split
      · exact hword .null _ (by decide)
      · split
        · exact hword (.bool true) _ (by decide)
        · split
          · exact hword (.bool false) _ (by decide)
          · split
            · exact ((unmarked_number _ _ rest).of_suffix hsuffix).marked
            · split
              · exact (unmarked_number _ _ _).marked
              · exact Unmarked.marked ⟨rfl, List.nil_suffix⟩

/-- The end of a text has no marks. -/
lemma lexemeMarks_finish (offset : ℕ) (acc : List Lexeme) :
    lexemeMarks (⟨.finish, offset, offset⟩ :: acc).reverse = lexemeMarks acc := by
  rw [lexemeMarks_reverse, lexemeMarks]
  exact Nat.zero_add _

lemma lexemeMarks_run (fuel offset : ℕ) (input : List Symbol) (acc : List Lexeme) :
    lexemeMarks (run fuel offset input acc) ≤ lexemeMarks acc + marks input := by
  induction fuel generalizing offset input acc with
  | zero =>
    rw [run, lexemeMarks_finish]
    exact Nat.le_add_right _ _
  | succ fuel ih =>
    cases input with
    | nil =>
      rw [run, lexemeMarks_finish]
      exact Nat.le_add_right _ _
    | cons s rest =>
      cases s with
      | char c =>
        rw [run]
        split
        · have hrest := marks_le_of_suffix (List.suffix_cons (Symbol.char c) rest)
          exact Nat.le_trans (ih _ _ _) (Nat.add_le_add_left hrest _)
        · have htoken := marked_token c offset rest
          have htail := ih (token c offset rest).2.2 (token c offset rest).2.1
            (⟨(token c offset rest).1, offset, (token c offset rest).2.2⟩ :: acc)
          rw [lexemeMarks] at htail
          unfold Marked at htoken
          exact Nat.le_trans htail (by dsimp only; omega)
      | stray bytes =>
        rw [run]
        have htail := ih offset [] (⟨.other, offset, offset + bytes.length⟩ :: acc)
        rw [lexemeMarks] at htail
        rw [marks_nil] at htail
        have hother : Token.other.marks = 0 := rfl
        exact Nat.le_trans htail (by dsimp only; omega)

end Lexer

/-- **The lexemes of a text need at most its marks to be written.** -/
lemma lexemeMarks_lexemes (input : List Symbol) : lexemeMarks (lexemes input) ≤ marks input := by
  have hrun := Lexer.lexemeMarks_run (input.length + 1) 0 input []
  rwa [lexemeMarks, Nat.zero_add] at hrun

end ContractConversion.Json
