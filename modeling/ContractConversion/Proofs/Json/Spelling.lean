import ContractConversion.Proofs.Json.Marks
import ContractConversion.Proofs.Json.Normal

/-!
# No spelling of a value has fewer marks than the compact form

`Value.marks` counts the marks that a value needs to be written. The compact form has just these
(`Value.marks_compactChars`), if all numbers are integers, and any text that is read as the value
has at least these (`Value.marks_le_of_parse`): it may have blanks, other escapes, and members that
a later one of the same key replaces.
-/

namespace ContractConversion.Json

open Text (Symbol)

namespace Value

mutual

/-- The number of marks of the compact form; numbers have none. -/
def marks : Value → ℕ
  | .null => 1
  | .bool b => if b then 1 else 0
  | .num _ => 0
  | .str s => stringMarks s.toList
  | .arr items => itemMarks items
  | .obj members => memberMarks members

/-- The number of marks of items. -/
def itemMarks : List Value → ℕ
  | [] => 0
  | v :: rest => marks v + itemMarks rest

/-- The number of marks of members. -/
def memberMarks : List (String × Value) → ℕ
  | [] => 0
  | (k, v) :: rest => stringMarks k.toList + marks v + memberMarks rest

end

/-- A member that takes its place among others adds at most its own marks. -/
lemma memberMarks_insertMember_le (k : String) (v : Value) (ms : List (String × Value)) :
    memberMarks (insertMember k v ms) ≤ stringMarks k.toList + v.marks + memberMarks ms := by
  induction ms with
  | nil =>
    rw [insertMember, memberMarks]
    exact Nat.le_refl _
  | cons m rest ih =>
    rw [insertMember]
    split
    · rw [memberMarks, memberMarks]
      omega
    · split
      · exact Nat.le_refl _
      · rw [memberMarks, memberMarks]
        omega

/-- An object has no marks that its members do not have. -/
lemma marks_ofMembers_le (ms : List (String × Value)) :
    (ofMembers ms).marks ≤ memberMarks ms := by
  have hfold : ∀ acc : List (String × Value),
      memberMarks (ms.foldl (fun acc m => insertMember m.1 m.2 acc) acc) ≤
        memberMarks acc + memberMarks ms := by
    induction ms with
    | nil => exact fun acc => Nat.le_refl _
    | cons m rest ih =>
      intro acc
      have hinsert := memberMarks_insertMember_le m.1 m.2 acc
      rw [List.foldl_cons, memberMarks]
      exact Nat.le_trans (ih _) (by omega)
  have hall := hfold []
  rw [memberMarks, Nat.zero_add] at hall
  exact hall

end Value

/-! ## Trees -/

namespace Tree

variable {m n : ℕ}

/-- If the reader reads what stands in front of some lexemes, this and the lexemes need at most `n`
marks. -/
def Costs {α β : Type} (reader : α → Except Fault β) (weigh : β → ℕ) (n : ℕ)
    (result : α × List Lexeme) : Prop :=
  ∀ b, reader result.1 = .ok b → weigh b + lexemeMarks result.2 ≤ n

section

variable {α β : Type} {reader : α → Except Fault β} {weigh : β → ℕ} {a : α} {ls : List Lexeme}

lemma Costs.mono {result : α × List Lexeme} (h : Costs reader weigh m result) (hle : m ≤ n) :
    Costs reader weigh n result :=
  fun b hb => Nat.le_trans (h b hb) hle

/-- What costs so much by itself, in front of any lexemes. -/
lemma costs_cons (h : ∀ b, reader a = .ok b → weigh b ≤ n) :
    Costs reader weigh (n + lexemeMarks ls) (a, ls) :=
  fun b hb => Nat.add_le_add_right (h b hb) _

/-- What needs no marks costs nothing. -/
lemma costs_free (h : ∀ b, reader a = .ok b → weigh b = 0) :
    Costs reader weigh (lexemeMarks ls) (a, ls) := by
  intro b hb
  rw [h b hb]
  exact Nat.le_of_eq (Nat.zero_add _)

end

lemma costs_none {fault : Fault} {start : ℕ} {ls : List Lexeme} :
    Costs read Value.marks n (.none fault start, ls) := by
  intro v h
  cases h

/-- The end of a list of items costs nothing, and neither does that of a list of members. -/
lemma costs_nil (ending : Ending) (ls : List Lexeme) :
    Costs readItems Value.itemMarks (lexemeMarks ls) (.nil ending, ls) ∧
      Costs readMembers Value.memberMarks (lexemeMarks ls) (.nil ending, ls) := by
  cases ending with
  | closed stop =>
    constructor
    · exact costs_free fun vs h => by cases h; rfl
    · exact costs_free fun ms h => by cases h; rfl
  | cut next close skip =>
    constructor
    · exact costs_free fun vs h => by cases h
    · exact costs_free fun ms h => by cases h

/-- An item and the items behind it. -/
lemma costs_item {head : Tree × List Lexeme} {tail : Items × List Lexeme}
    (hhead : Costs read Value.marks n head)
    (htail : Costs readItems Value.itemMarks (lexemeMarks head.2) tail) :
    Costs readItems Value.itemMarks n (.cons head.1 tail.1, tail.2) := by
  intro vs h
  rw [readItems] at h
  obtain ⟨v, hv, h⟩ := bind_eq_ok.mp h
  obtain ⟨rest, hrest, h⟩ := bind_eq_ok.mp h
  cases h
  have hfirst := hhead v hv
  have hothers := htail rest hrest
  rw [Value.itemMarks]
  dsimp only
  omega

/-- A key, its value and the members behind them. -/
lemma costs_member {key : Except Fault String} {skip : Option Fault} {behind : ℕ}
    {value : Tree × List Lexeme} {tail : Members × List Lexeme}
    (hvalue : Costs read Value.marks n value)
    (htail : Costs readMembers Value.memberMarks (lexemeMarks value.2) tail) :
    Costs readMembers Value.memberMarks (readMarks key + n)
      (.cons key skip behind value.1 tail.1, tail.2) := by
  intro ms h
  rw [readMembers] at h
  obtain ⟨k, hkey, h⟩ := bind_eq_ok.mp h
  obtain ⟨v, hv, h⟩ := bind_eq_ok.mp h
  obtain ⟨rest, hrest, h⟩ := bind_eq_ok.mp h
  cases h
  have hfirst := hvalue v hv
  have hothers := htail rest hrest
  rw [Value.memberMarks, hkey, readMarks]
  dsimp only
  omega

/-- Members of which one has no value are not read. -/
lemma costs_member_none {key : Except Fault String} {skip : Option Fault} {behind start : ℕ}
    {fault : Fault} {tail : Members} {ls : List Lexeme} :
    Costs readMembers Value.memberMarks n
      (.cons key skip behind (.none fault start) tail, ls) := by
  intro ms h
  rw [readMembers] at h
  obtain ⟨k, hkey, h⟩ := bind_eq_ok.mp h
  obtain ⟨v, hv, h⟩ := bind_eq_ok.mp h
  cases hv

lemma costs_seq {tooDeep : Bool} {start : ℕ} {items : Items × List Lexeme}
    (h : Costs readItems Value.itemMarks n items) :
    Costs read Value.marks n (.seq tooDeep start items.1, items.2) := by
  intro v hv
  rw [read] at hv
  obtain ⟨-, -, hv⟩ := bind_eq_ok.mp hv
  obtain ⟨vs, hvs, hv⟩ := bind_eq_ok.mp hv
  cases hv
  exact h vs hvs

/-- An object keeps at most the marks of the members that it is read from. -/
lemma costs_map {tooDeep : Bool} {start : ℕ} {members : Members × List Lexeme}
    (h : Costs readMembers Value.memberMarks n members) :
    Costs read Value.marks n (.map tooDeep start members.1, members.2) := by
  intro v hv
  rw [read] at hv
  obtain ⟨-, -, hv⟩ := bind_eq_ok.mp hv
  obtain ⟨ms, hms, hv⟩ := bind_eq_ok.mp hv
  cases hv
  exact Nat.le_trans (Nat.add_le_add_right (Value.marks_ofMembers_le ms) _) (h ms hms)

mutual

/-- What is read of lexemes needs at most their marks. This holds for any fuel: where it runs out,
nothing is read, or an empty list. -/
theorem costs_ofLexemes : (fuel depth : ℕ) → (ls : List Lexeme) →
    Costs read Value.marks (lexemeMarks ls) (ofLexemes fuel depth ls)
  | 0, _, _ => by
    unfold ofLexemes
    intro v h
    cases h
  | _ + 1, _, [] => by
    unfold ofLexemes
    intro v h
    cases h
  | fuel + 1, depth, l :: ls => by
    have hbehind : lexemeMarks ls ≤ lexemeMarks (l :: ls) := Nat.le_add_left _ _
    unfold ofLexemes
    split
    · next hl =>
      rw [lexemeMarks, hl]
      exact costs_cons fun v h => by cases h; exact Nat.le_refl _
    · next b hl =>
      rw [lexemeMarks, hl]
      exact costs_cons fun v h => by cases h; exact Nat.le_refl _
    · next read skip hl =>
      rw [lexemeMarks, hl]
      exact costs_cons fun v h => by
        obtain ⟨k, -, rfl⟩ := map_eq_ok.mp h
        exact Nat.le_refl _
    · next read skip hl =>
      rw [lexemeMarks, hl]
      exact costs_cons fun v h => by
        obtain ⟨s, hs, rfl⟩ := map_eq_ok.mp h
        rw [hs]
        exact Nat.le_refl _
    · exact costs_none
    · exact costs_none
    · exact (costs_seq (costs_itemsOf fuel (depth + 1) true ls)).mono hbehind
    · exact (costs_map (costs_membersOf fuel (depth + 1) true ls)).mono hbehind
    · exact costs_none
    · exact costs_none

theorem costs_itemsOf : (fuel depth : ℕ) → (first : Bool) → (ls : List Lexeme) →
    Costs readItems Value.itemMarks (lexemeMarks ls) (itemsOf fuel depth first ls)
  | 0, _, _, ls => by
    unfold itemsOf
    exact (costs_nil _ ls).1
  | _ + 1, _, _, [] => by
    unfold itemsOf
    exact (costs_nil _ []).1
  | fuel + 1, depth, first, l :: ls => by
    have hbehind : lexemeMarks ls ≤ lexemeMarks (l :: ls) := Nat.le_add_left _ _
    unfold itemsOf
    split
    · exact (costs_nil _ ls).1.mono hbehind
    · exact (costs_nil _ _).1
    · split
      · exact costs_item (costs_ofLexemes fuel depth _) (costs_itemsOf fuel depth false _)
      · split
        · next m ls _ =>
          split
          · exact (costs_nil _ _).1.mono hbehind
          · exact (costs_nil _ _).1.mono hbehind
          · exact (costs_item (costs_ofLexemes fuel depth _)
              (costs_itemsOf fuel depth false _)).mono hbehind
        · exact (costs_nil _ _).1

theorem costs_membersOf : (fuel depth : ℕ) → (first : Bool) → (ls : List Lexeme) →
    Costs readMembers Value.memberMarks (lexemeMarks ls) (membersOf fuel depth first ls)
  | 0, _, _, ls => by
    unfold membersOf
    exact (costs_nil _ ls).2
  | _ + 1, _, _, [] => by
    unfold membersOf
    exact (costs_nil _ []).2
  | fuel + 1, depth, first, l :: ls => by
    have hbehind : lexemeMarks ls ≤ lexemeMarks (l :: ls) := Nat.le_add_left _ _
    unfold membersOf
    split
    · exact (costs_nil _ ls).2.mono hbehind
    · exact (costs_nil _ _).2
    · next read skip hl =>
      rw [lexemeMarks, hl]
      exact costs_memberOf fuel depth read skip ls
    · exact (costs_nil _ _).2
    · dsimp only
      split
      · exact (costs_nil _ _).2.mono hbehind
      · next m ls =>
        split
        · next read skip hm =>
          refine (costs_memberOf fuel depth read skip ls).mono (Nat.le_trans ?_ hbehind)
          rw [lexemeMarks, hm]
          exact Nat.le_refl _
        all_goals exact (costs_nil _ _).2.mono hbehind
    · exact (costs_nil _ _).2

theorem costs_memberOf : (fuel depth : ℕ) → (key : Except Fault String) →
    (skip : Option Fault) → (ls : List Lexeme) →
    Costs readMembers Value.memberMarks (readMarks key + lexemeMarks ls)
      (memberOf fuel depth key skip ls)
  | 0, _, _, _, ls => by
    unfold memberOf
    exact (costs_nil _ ls).2.mono (Nat.le_add_left _ _)
  | _ + 1, _, _, _, [] => by
    unfold memberOf
    exact (costs_nil _ []).2.mono (Nat.le_add_left _ _)
  | fuel + 1, depth, key, skip, l :: ls => by
    have hbehind : lexemeMarks ls ≤ lexemeMarks (l :: ls) := Nat.le_add_left _ _
    unfold memberOf
    split
    · exact (costs_member (costs_ofLexemes fuel depth ls)
        (costs_membersOf fuel depth false _)).mono (Nat.add_le_add_left hbehind _)
    all_goals exact costs_member_none

end

end Tree

/-- **A text that is read as a value has the marks that the value needs.** -/
theorem Value.marks_le_of_parse {input : List Symbol} {v : Value} (h : parse input = .ok v) :
    v.marks ≤ Json.marks input := by
  rw [parse, Document.readWith] at h
  obtain ⟨w, hw, h⟩ := bind_eq_ok.mp h
  obtain ⟨-, -, h⟩ := bind_eq_ok.mp h
  cases h
  -- what stands behind the value makes no difference to it
  have hroot : (Document.parse input).root =
      (Tree.ofLexemes (2 * (lexemes input).length + 2) 0 (lexemes input)).1 := by
    rw [Document.parse]
    dsimp only
    split
    · rfl
    · split <;> rfl
  rw [hroot] at hw
  have hcost := Tree.costs_ofLexemes _ 0 (lexemes input) v hw
  have hlexemes := lexemeMarks_lexemes input
  omega

/-! ## The compact form -/

/-- A character that is no mark does not count. -/
lemma marks_cons_of_unmarked {c : Char} (hc : isMark (.char c) = false) {cs : List Char} :
    marks ((c :: cs).map .char) = marks (cs.map .char) :=
  List.countP_cons_of_neg (by rw [hc]; exact Bool.false_ne_true)

lemma marks_quote (s : String) : marks ((quote s).map .char) = stringMarks s.toList := by
  have hall : ∀ cs : List Char, marks ((cs.flatMap escape).map .char) = stringMarks cs := by
    intro cs
    induction cs with
    | nil => rfl
    | cons c cs ih =>
      rw [List.flatMap_cons, List.map_append, marks_append, ih]
      rfl
  rw [quote, List.cons_append, marks_cons_of_unmarked rfl, List.map_append, marks_append, hall]
  rfl

/-- No digit of an integer is a mark. -/
lemma marks_intText (n : ℤ) : marks ((Number.intText n).map .char) = 0 := by
  have hdigits : ∀ k, marks ((Nat.toDigits 10 k).map .char) = 0 := by
    intro k
    refine List.countP_eq_zero.mpr fun s hs hmark => ?_
    obtain ⟨c, hc, rfl⟩ := List.mem_map.mp hs
    have hdigit := Nat.isDigit_of_mem_toDigits (b := 10) (by decide) (by decide) hc
    simp only [isMark, Bool.or_eq_true, beq_iff_eq] at hmark
    rcases hmark with (rfl | rfl) | rfl <;> exact absurd hdigit (by decide)
  cases n with
  | ofNat k => exact hdigits k
  | negSucc k =>
    rw [Number.intText, marks_cons_of_unmarked rfl, hdigits]

namespace Value

mutual

/-- The compact form of a value has just the marks that the value needs. -/
theorem marks_compactChars : (v : Value) → v.Integral →
    Json.marks (v.compactChars.map .char) = v.marks
  | .null, _ => rfl
  | .bool true, _ => rfl
  | .bool false, _ => rfl
  | .num (.int n), _ => marks_intText n
  | .str s, _ => marks_quote s
  | .arr items, h => by
    have hitems := marks_compactItems items h
    rw [compactChars, List.cons_append, marks_cons_of_unmarked rfl, List.map_append, marks_append,
      hitems]
    rfl
  | .obj members, h => by
    have hmembers := marks_compactMembers members h
    rw [compactChars, List.cons_append, marks_cons_of_unmarked rfl, List.map_append, marks_append,
      hmembers]
    rfl

theorem marks_compactItems : (items : List Value) → IntegralItems items →
    Json.marks ((compactItems items).map .char) = itemMarks items
  | [], _ => rfl
  | [v], h => marks_compactChars v h.1
  | v :: w :: rest, h => by
    have hfirst := marks_compactChars v h.1
    have hothers := marks_compactItems (w :: rest) h.2
    rw [compactItems, List.map_append, marks_append, marks_cons_of_unmarked rfl, hfirst, hothers]
    · rfl
    · exact List.cons_ne_nil w rest

theorem marks_compactMembers : (members : List (String × Value)) → IntegralMembers members →
    Json.marks ((compactMembers members).map .char) = memberMarks members
  | [], _ => rfl
  | [(k, v)], h => by
    have hvalue := marks_compactChars v h.1
    rw [compactMembers, List.map_append, marks_append, marks_quote, marks_cons_of_unmarked rfl,
      hvalue]
    rfl
  | (k, v) :: m :: rest, h => by
    have hvalue := marks_compactChars v h.1
    have hothers := marks_compactMembers (m :: rest) h.2
    rw [compactMembers, List.map_append, List.map_append, marks_append, marks_append, marks_quote,
      marks_cons_of_unmarked rfl, marks_cons_of_unmarked rfl, hvalue, hothers]
    · rfl
    · exact List.cons_ne_nil m rest

end

end Value

end ContractConversion.Json
