import ContractConversion.Json.Tree
import ContractConversion.Proofs.Json.Lexeme

/-!
# The tree of a written value

`Tree.Shows v t` says that `t` is a tree of the value `v` in which no container is refused; where
its parts stand in a text does not matter. The tokens of a value are read into such a tree, whatever
stands behind them, unless containers stand too deep (`Tree.readable`). The tree that is made of a
value shows it too (`Tree.shows_ofValue`).
-/

namespace ContractConversion.Json

open Text (Symbol)

namespace Tree

mutual

/-- The tree is one of the value, and no container of it is refused. -/
inductive Shows : Value → Tree → Prop
  | null {start stop : ℕ} : Shows .null (.null start stop)
  | bool {start stop : ℕ} {b : Bool} : Shows (.bool b) (.bool b start stop)
  | num {start stop : ℕ} {n : Number} : Shows (.num n) (.num (.ok n) .none start stop)
  | str {start stop : ℕ} {s : String} : Shows (.str s) (.str (.ok s) .none start stop)
  | seq {start : ℕ} {vs : List Value} {items : Items} (h : ShowsItems vs items) :
      Shows (.arr vs) (.seq false start items)
  | map {start : ℕ} {ms : List (String × Value)} {members : Members} (h : ShowsMembers ms members) :
      Shows (.obj ms) (.map false start members)

/-- The items are those of the values. -/
inductive ShowsItems : List Value → Items → Prop
  | nil {stop : ℕ} : ShowsItems [] (.nil (.closed stop))
  | cons {v : Value} {rest : List Value} {head : Tree} {tail : Items} (hv : Shows v head)
      (hrest : ShowsItems rest tail) : ShowsItems (v :: rest) (.cons head tail)

/-- The members are those of the keys and values. -/
inductive ShowsMembers : List (String × Value) → Members → Prop
  | nil {stop : ℕ} : ShowsMembers [] (.nil (.closed stop))
  | cons {behind : ℕ} {k : String} {v : Value} {rest : List (String × Value)} {value : Tree}
      {tail : Members} (hv : Shows v value) (hrest : ShowsMembers rest tail) :
      ShowsMembers ((k, v) :: rest) (.cons (.ok k) .none behind value tail)

end

mutual

/-- The tree that is made of a value shows it. -/
theorem shows_ofValue : (v : Value) → Shows v (ofValue v)
  | .null => .null
  | .bool _ => .bool
  | .num _ => .num
  | .str _ => .str
  | .arr vs => .seq (shows_ofItems vs)
  | .obj ms => .map (shows_ofMembers ms)

theorem shows_ofItems : (vs : List Value) → ShowsItems vs (ofItems vs)
  | [] => .nil
  | v :: vs => .cons (shows_ofValue v) (shows_ofItems vs)

theorem shows_ofMembers : (ms : List (String × Value)) → ShowsMembers ms (ofMembers ms)
  | [] => .nil
  | (_, v) :: ms => .cons (shows_ofValue v) (shows_ofMembers ms)

end

/-! ## Reading tokens -/

/-- A value starts with the token. -/
def Starts : Token → Prop
  | .null | .bool _ | .num _ _ | .str _ _ | .sign .bracketOpen | .sign .braceOpen => True
  | _ => False

lemma starts_tokens (v : Value) : ∃ t ts, v.tokens = t :: ts ∧ Starts t := by
  cases v <;> exact ⟨_, _, rfl, trivial⟩

/-- The lexemes of a value have a first one, and a value starts with it. -/
lemma exists_first {v : Value} {ls : List Lexeme} (h : ls.map Lexeme.token = v.tokens) :
    ∃ l rest, ls = l :: rest ∧ Starts l.token := by
  obtain ⟨t, ts, htokens, hstarts⟩ := starts_tokens v
  rw [htokens] at h
  obtain ⟨l, rest, rfl, rfl, -⟩ := List.map_eq_cons_iff.mp h
  exact ⟨l, rest, rfl, hstarts⟩

/-- The value is read from its tokens, whatever stands behind them. -/
def Readable (v : Value) : Prop :=
  ∀ ls : List Lexeme, ls.map Lexeme.token = v.tokens → ∀ fuel, ls.length ≤ fuel →
    ∀ depth rest, ∃ t, ofLexemes fuel depth (ls ++ rest) = (t, rest) ∧
      (depth + v.depth ≤ depthLimit → Shows v t)

/-- The items, which are the first of their array or not, are read from their tokens and the end of
the array. -/
def ItemsReadable (first : Bool) (vs : List Value) : Prop :=
  ∀ ls : List Lexeme, ls.map Lexeme.token =
      (if first then Value.itemTokens vs else Value.furtherItemTokens vs) ++
        [.sign .bracketClose] → ∀ fuel, ls.length ≤ fuel →
    ∀ depth rest, ∃ items, itemsOf fuel depth first (ls ++ rest) = (items, rest) ∧
      (depth + Value.depthItems vs ≤ depthLimit → ShowsItems vs items)

/-- The members, which are the first of their object or not, are read from their tokens and the end
of the object. -/
def MembersReadable (first : Bool) (ms : List (String × Value)) : Prop :=
  ∀ ls : List Lexeme, ls.map Lexeme.token =
      (if first then Value.memberTokens ms else Value.furtherMemberTokens ms) ++
        [.sign .braceClose] → ∀ fuel, ls.length ≤ fuel →
    ∀ depth rest, ∃ members, membersOf fuel depth first (ls ++ rest) = (members, rest) ∧
      (depth + Value.depthMembers ms ≤ depthLimit → ShowsMembers ms members)

/-- What reads at least one lexeme has some fuel. -/
lemma exists_fuel {n fuel : ℕ} (h : n + 1 ≤ fuel) : ∃ k, fuel = k + 1 ∧ n ≤ k :=
  ⟨fuel - 1, by omega, by omega⟩

/-- A value of one token. -/
lemma readable_scalar {v : Value} {t : Token} (htoken : v.tokens = [t])
    (h : ∀ l : Lexeme, l.token = t → ∀ fuel depth rest, ∃ tree,
      ofLexemes (fuel + 1) depth (l :: rest) = (tree, rest) ∧ Shows v tree) : Readable v := by
  intro ls hls fuel hfuel depth rest
  rw [htoken] at hls
  obtain ⟨l, rfl, hl⟩ := List.map_eq_singleton_iff.mp hls
  obtain ⟨fuel, rfl, -⟩ := exists_fuel hfuel
  obtain ⟨tree, htree, hshows⟩ := h l hl fuel depth rest
  exact ⟨tree, htree, fun _ => hshows⟩

/-! ## Items -/

/-- Behind its bracket, an array that does not end goes on with an item. -/
lemma itemsOf_first {l : Lexeme} (h : Starts l.token) (fuel depth : ℕ) (ls : List Lexeme) :
    itemsOf (fuel + 1) depth true (l :: ls) =
      let (head, rest) := ofLexemes fuel depth (l :: ls)
      let (tail, rest) := itemsOf fuel depth false rest
      (.cons head tail, rest) := by
  cases hl : l.token with
  | sign s =>
    rw [hl] at h
    cases s with
    | bracketOpen | braceOpen => simp [itemsOf, hl]
    | _ => exact h.elim
  | badWord fault | other | finish => exact absurd h (by simp [hl, Starts])
  | _ => simp [itemsOf, hl]

/-- Behind a comma, an array goes on with an item. -/
lemma itemsOf_further {comma l : Lexeme} (hcomma : comma.token = .sign .comma)
    (h : Starts l.token) (fuel depth : ℕ) (ls : List Lexeme) :
    itemsOf (fuel + 1) depth false (comma :: l :: ls) =
      let (head, rest) := ofLexemes fuel depth (l :: ls)
      let (tail, rest) := itemsOf fuel depth false rest
      (.cons head tail, rest) := by
  cases hl : l.token with
  | sign s =>
    rw [hl] at h
    cases s with
    | bracketOpen | braceOpen => simp [itemsOf, hl, hcomma]
    | _ => exact h.elim
  | badWord fault | other | finish => exact absurd h (by simp [hl, Starts])
  | _ => simp [itemsOf, hl, hcomma]

lemma itemsReadable_nil (first : Bool) : ItemsReadable first [] := by
  intro ls hls fuel hfuel depth rest
  have hclose : ls.map Lexeme.token = [.sign .bracketClose] := by
    cases first <;> exact hls
  obtain ⟨l, rfl, hl⟩ := List.map_eq_singleton_iff.mp hclose
  obtain ⟨fuel, rfl, -⟩ := exists_fuel hfuel
  exact ⟨.nil (.closed l.stop), by simp [itemsOf, hl], fun _ => .nil⟩

/-- An item and the items behind it. -/
lemma exists_items {v : Value} {vs : List Value} (hv : Readable v) (hvs : ItemsReadable false vs)
    {ls : List Lexeme} (hls : ls.map Lexeme.token =
      v.tokens ++ (Value.furtherItemTokens vs ++ [.sign .bracketClose]))
    {fuel : ℕ} (hfuel : ls.length ≤ fuel + 1) (depth : ℕ) (rest : List Lexeme) :
    ∃ l ls', ls = l :: ls' ∧ Starts l.token ∧ ∃ head middle tail,
      ofLexemes fuel depth (ls ++ rest) = (head, middle) ∧
      itemsOf fuel depth false middle = (tail, rest) ∧
      (depth + Value.depthItems (v :: vs) ≤ depthLimit →
        ShowsItems (v :: vs) (.cons head tail)) := by
  obtain ⟨front, back, rfl, hfront, hback⟩ := List.map_eq_append_iff.mp hls
  obtain ⟨l, front, rfl, hstarts⟩ := exists_first hfront
  have hpos : 0 < back.length := by
    rw [← List.length_map Lexeme.token, hback, List.length_append]
    exact Nat.succ_pos _
  simp only [List.length_append, List.length_cons] at hfuel
  obtain ⟨head, hhead, hshow⟩ := hv (l :: front) hfront fuel (by simp; omega) depth (back ++ rest)
  obtain ⟨tail, htail, hshows⟩ := hvs back hback fuel (by omega) depth rest
  refine ⟨l, front ++ back, rfl, hstarts, head, back ++ rest, tail,
    by rw [List.append_assoc, hhead], htail, fun hdepth => ?_⟩
  rw [Value.depthItems] at hdepth
  exact .cons (hshow (by omega)) (hshows (by omega))

lemma ItemsReadable.first {v : Value} {vs : List Value} (hv : Readable v)
    (hvs : ItemsReadable false vs) : ItemsReadable true (v :: vs) := by
  intro ls hls fuel hfuel depth rest
  rw [if_pos rfl, Value.itemTokens, List.append_assoc] at hls
  have hlength : ls.length ≤ ls.length + 1 := Nat.le_succ _
  obtain ⟨l, ls, rfl, hstarts, -⟩ := exists_items hv hvs hls hlength 0 []
  obtain ⟨fuel, rfl, -⟩ := exists_fuel hfuel
  obtain ⟨-, -, -, -, head, middle, tail, hhead, htail, hshows⟩ :=
    exists_items hv hvs hls hfuel depth rest
  rw [List.cons_append] at hhead ⊢
  refine ⟨.cons head tail, ?_, hshows⟩
  rw [itemsOf_first hstarts, hhead]
  dsimp only
  rw [htail]

lemma ItemsReadable.further {v : Value} {vs : List Value} (hv : Readable v)
    (hvs : ItemsReadable false vs) : ItemsReadable false (v :: vs) := by
  intro ls hls fuel hfuel depth rest
  rw [if_neg Bool.false_ne_true, Value.furtherItemTokens, List.cons_append,
    List.append_assoc] at hls
  obtain ⟨comma, ls, rfl, hcomma, hls⟩ := List.map_eq_cons_iff.mp hls
  obtain ⟨fuel, rfl, hle⟩ := exists_fuel hfuel
  obtain ⟨l, ls, rfl, hstarts, head, middle, tail, hhead, htail, hshows⟩ :=
    exists_items hv hvs hls (Nat.le_succ_of_le hle) depth rest
  rw [List.cons_append] at hhead
  refine ⟨.cons head tail, ?_, hshows⟩
  rw [List.cons_append, List.cons_append, itemsOf_further hcomma hstarts, hhead]
  dsimp only
  rw [htail]

/-- A container that does not stand too deep is not refused. -/
lemma not_tooDeep {depth : ℕ} (h : depth < depthLimit) : decide (depthLimit ≤ depth) = false :=
  decide_eq_false (Nat.not_le_of_lt h)

lemma readable_arr {vs : List Value} (h : ItemsReadable true vs) : Readable (.arr vs) := by
  intro ls hls fuel hfuel depth rest
  obtain ⟨l, ls, rfl, hl, hls⟩ := List.map_eq_cons_iff.mp hls
  obtain ⟨fuel, rfl, hle⟩ := exists_fuel hfuel
  obtain ⟨items, hitems, hshows⟩ := h ls hls fuel hle (depth + 1) rest
  refine ⟨.seq (depthLimit ≤ depth) l.start items, by simp [ofLexemes, hl, hitems],
    fun hdepth => ?_⟩
  rw [Value.depth] at hdepth
  rw [not_tooDeep (by omega)]
  exact .seq (hshows (by omega))

/-! ## Members -/

/-- Behind its brace, an object goes on with a key. -/
lemma membersOf_first {l : Lexeme} {k : String} (h : l.token = .str (.ok k) .none)
    (fuel depth : ℕ) (ls : List Lexeme) :
    membersOf (fuel + 1) depth true (l :: ls) = memberOf fuel depth (.ok k) .none ls := by
  unfold membersOf
  rw [h]

/-- Behind a comma, an object goes on with a key. -/
lemma membersOf_further {comma l : Lexeme} {k : String} (hcomma : comma.token = .sign .comma)
    (h : l.token = .str (.ok k) .none) (fuel depth : ℕ) (ls : List Lexeme) :
    membersOf (fuel + 1) depth false (comma :: l :: ls) =
      memberOf fuel depth (.ok k) .none ls := by
  unfold membersOf
  rw [hcomma]
  dsimp only
  rw [h]

lemma membersReadable_nil (first : Bool) : MembersReadable first [] := by
  intro ls hls fuel hfuel depth rest
  have hclose : ls.map Lexeme.token = [.sign .braceClose] := by
    cases first <;> exact hls
  obtain ⟨l, rfl, hl⟩ := List.map_eq_singleton_iff.mp hclose
  obtain ⟨fuel, rfl, -⟩ := exists_fuel hfuel
  exact ⟨.nil (.closed l.stop), by simp [membersOf, hl], fun _ => .nil⟩

/-- A member from behind its key on, and the members behind it. -/
lemma exists_members {k : String} {v : Value} {ms : List (String × Value)} (hv : Readable v)
    (hms : MembersReadable false ms) {ls : List Lexeme} (hls : ls.map Lexeme.token =
      .sign .colon :: (v.tokens ++ (Value.furtherMemberTokens ms ++ [.sign .braceClose])))
    {fuel : ℕ} (hfuel : ls.length ≤ fuel) (depth : ℕ) (rest : List Lexeme) :
    ∃ members, memberOf fuel depth (.ok k) .none (ls ++ rest) = (members, rest) ∧
      (depth + Value.depthMembers ((k, v) :: ms) ≤ depthLimit →
        ShowsMembers ((k, v) :: ms) members) := by
  obtain ⟨colon, ls, rfl, hcolon, hls⟩ := List.map_eq_cons_iff.mp hls
  obtain ⟨front, back, rfl, hfront, hback⟩ := List.map_eq_append_iff.mp hls
  obtain ⟨fuel, rfl, hle⟩ := exists_fuel hfuel
  rw [List.length_append] at hle
  obtain ⟨value, hvalue, hshow⟩ := hv front hfront fuel (by omega) depth (back ++ rest)
  obtain ⟨tail, htail, hshows⟩ := hms back hback fuel (by omega) depth rest
  refine ⟨.cons (.ok k) .none colon.start value tail, ?_, fun hdepth => ?_⟩
  · rw [List.cons_append, List.append_assoc]
    simp only [memberOf, hcolon, hvalue, htail]
  · rw [Value.depthMembers] at hdepth
    exact .cons (hshow (by omega)) (hshows (by omega))

lemma MembersReadable.first {k : String} {v : Value} {ms : List (String × Value)}
    (hv : Readable v) (hms : MembersReadable false ms) : MembersReadable true ((k, v) :: ms) := by
  intro ls hls fuel hfuel depth rest
  simp only [if_true, Value.memberTokens, List.cons_append, List.append_assoc] at hls
  obtain ⟨key, ls, rfl, hkey, hls⟩ := List.map_eq_cons_iff.mp hls
  obtain ⟨fuel, rfl, hle⟩ := exists_fuel hfuel
  obtain ⟨members, hmembers, hshows⟩ :=
    exists_members (k := k) hv hms hls hle depth rest
  refine ⟨members, ?_, hshows⟩
  rw [List.cons_append, membersOf_first hkey, hmembers]

lemma MembersReadable.further {k : String} {v : Value} {ms : List (String × Value)}
    (hv : Readable v) (hms : MembersReadable false ms) : MembersReadable false ((k, v) :: ms) := by
  intro ls hls fuel hfuel depth rest
  simp only [Bool.false_eq_true, if_false, Value.furtherMemberTokens, List.cons_append,
    List.append_assoc] at hls
  obtain ⟨comma, ls, rfl, hcomma, hls⟩ := List.map_eq_cons_iff.mp hls
  obtain ⟨key, ls, rfl, hkey, hls⟩ := List.map_eq_cons_iff.mp hls
  obtain ⟨fuel, rfl, hle⟩ := exists_fuel hfuel
  obtain ⟨members, hmembers, hshows⟩ :=
    exists_members (k := k) hv hms hls (Nat.le_of_succ_le hle) depth rest
  refine ⟨members, ?_, hshows⟩
  rw [List.cons_append, List.cons_append, membersOf_further hcomma hkey, hmembers]

lemma readable_obj {ms : List (String × Value)} (h : MembersReadable true ms) :
    Readable (.obj ms) := by
  intro ls hls fuel hfuel depth rest
  obtain ⟨l, ls, rfl, hl, hls⟩ := List.map_eq_cons_iff.mp hls
  obtain ⟨fuel, rfl, hle⟩ := exists_fuel hfuel
  obtain ⟨members, hmembers, hshows⟩ := h ls hls fuel hle (depth + 1) rest
  refine ⟨.map (depthLimit ≤ depth) l.start members, by simp [ofLexemes, hl, hmembers],
    fun hdepth => ?_⟩
  rw [Value.depth] at hdepth
  rw [not_tooDeep (by omega)]
  exact .map (hshows (by omega))

/-! ## Values -/

mutual

/-- **The tokens of a value are read into its tree**, whatever stands behind them. -/
theorem readable : (v : Value) → Readable v
  | .null => readable_scalar rfl fun l hl _ _ _ =>
      ⟨.null l.start l.stop, by simp only [ofLexemes, hl], .null⟩
  | .bool b => readable_scalar rfl fun l hl _ _ _ =>
      ⟨.bool b l.start l.stop, by simp only [ofLexemes, hl], .bool⟩
  | .num n => readable_scalar rfl fun l hl _ _ _ =>
      ⟨.num (.ok n) .none l.start l.stop, by simp only [ofLexemes, hl], .num⟩
  | .str s => readable_scalar rfl fun l hl _ _ _ =>
      ⟨.str (.ok s) .none l.start l.stop, by simp only [ofLexemes, hl], .str⟩
  | .arr vs => readable_arr (itemsReadable vs).1
  | .obj ms => readable_obj (membersReadable ms).1

theorem itemsReadable : (vs : List Value) → ItemsReadable true vs ∧ ItemsReadable false vs
  | [] => ⟨itemsReadable_nil true, itemsReadable_nil false⟩
  | v :: vs =>
    ⟨.first (readable v) (itemsReadable vs).2, .further (readable v) (itemsReadable vs).2⟩

theorem membersReadable :
    (ms : List (String × Value)) → MembersReadable true ms ∧ MembersReadable false ms
  | [] => ⟨membersReadable_nil true, membersReadable_nil false⟩
  | (_, v) :: ms =>
    ⟨.first (readable v) (membersReadable ms).2, .further (readable v) (membersReadable ms).2⟩

end

end Tree

/-- **A text that is cut into the tokens of a value is read into a tree of it**, unless containers
stand too deep. -/
theorem Document.parse_of_cuts {cs : List Char} {v : Value} (h : Lexer.Cuts cs v.tokens)
    (hdepth : v.depth ≤ depthLimit) :
    ∃ t, Document.parse (cs.map .char) = ⟨t, none⟩ ∧ Tree.Shows v t := by
  obtain ⟨found, stop, htokens, hlexemes⟩ := lexemes_of_cuts h
  have hfuel : found.length ≤ 2 * (found ++ [(⟨.finish, stop, stop⟩ : Lexeme)]).length + 2 := by
    rw [List.length_append]
    omega
  obtain ⟨t, ht, hshows⟩ := Tree.readable v found htokens _ hfuel 0 [⟨.finish, stop, stop⟩]
  refine ⟨t, ?_, hshows (by omega)⟩
  rw [Document.parse, hlexemes]
  dsimp only
  rw [ht]

/-- A written value is read into a tree of it, unless containers stand too deep. -/
theorem Document.parse_compact {v : Value} (h : v.Integral) (hdepth : v.depth ≤ depthLimit) :
    ∃ t, Document.parse (v.compactChars.map .char) = ⟨t, none⟩ ∧ Tree.Shows v t :=
  parse_of_cuts (Lexer.cuts_compact v h) hdepth

end ContractConversion.Json
