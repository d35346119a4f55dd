import ContractConversion.Proofs.Except
import ContractConversion.Proofs.Json.Tree

/-!
# Values in normal form

A value is in normal form if every object in it has its members in the order of their keys, each key
once. Whatever tree is read, the value is in normal form (`Tree.normal_of_read`); a value in normal
form is read as it is from a tree of it (`Tree.read_of_shows`).
-/

namespace ContractConversion.Json

namespace Value

mutual

/-- Every object has its members in the order of their keys, each key once. -/
def Normal : Value → Prop
  | .arr items => NormalItems items
  | .obj members => (members.map (·.1)).Pairwise (· < ·) ∧ NormalMembers members
  | _ => True

/-- All items are in normal form. -/
def NormalItems : List Value → Prop
  | [] => True
  | v :: rest => Normal v ∧ NormalItems rest

/-- The values of all members are in normal form. -/
def NormalMembers : List (String × Value) → Prop
  | [] => True
  | (_, v) :: rest => Normal v ∧ NormalMembers rest

end

lemma normalItems_iff {items : List Value} : NormalItems items ↔ ∀ v ∈ items, v.Normal := by
  induction items with
  | nil => simp [NormalItems]
  | cons v rest ih => simp [NormalItems, ih]

lemma normalMembers_iff {members : List (String × Value)} :
    NormalMembers members ↔ ∀ m ∈ members, m.2.Normal := by
  induction members with
  | nil => simp [NormalMembers]
  | cons m rest ih => simp [NormalMembers, ih]

/-! ## Objects in the order of their keys -/

section

variable {k : String} {v : Value} {members : List (String × Value)}

/-- A member with a greater key than all others goes to the end. -/
lemma insertMember_of_lt (h : ∀ m ∈ members, m.1 < k) :
    insertMember k v members = members ++ [(k, v)] := by
  induction members with
  | nil => rfl
  | cons m rest ih =>
    have hlt : m.1 < k := h m List.mem_cons_self
    have hne : k ≠ m.1 := fun heq => String.lt_irrefl k (heq ▸ hlt)
    have hnot : ¬ k < m.1 := String.lt_asymm hlt
    rw [insertMember, if_neg hne, if_neg hnot, ih fun n hn => h n (List.mem_cons_of_mem _ hn)]
    rfl

lemma mem_of_mem_insertMember {m : String × Value} (h : m ∈ insertMember k v members) :
    m = (k, v) ∨ m ∈ members := by
  induction members with
  | nil => exact Or.inl (List.mem_singleton.mp h)
  | cons n rest ih =>
    rw [insertMember] at h
    split at h
    · rcases List.mem_cons.mp h with h | h
      · exact Or.inl h
      · exact Or.inr (List.mem_cons_of_mem _ h)
    · split at h
      · exact List.mem_cons.mp h
      · rcases List.mem_cons.mp h with h | h
        · exact Or.inr (h ▸ List.mem_cons_self)
        · exact (ih h).imp_right (List.mem_cons_of_mem _)

/-- Putting in a member keeps the order of the keys. -/
lemma pairwise_insertMember (h : (members.map (·.1)).Pairwise (· < ·)) :
    ((insertMember k v members).map (·.1)).Pairwise (· < ·) := by
  induction members with
  | nil => exact List.pairwise_singleton _ _
  | cons m rest ih =>
    have hall := List.pairwise_cons.mp h
    rw [insertMember]
    split
    · next heq =>
      subst heq
      exact h
    · next hne =>
      split
      · next hlt =>
        refine List.pairwise_cons.mpr ⟨fun key hkey => ?_, h⟩
        rcases List.mem_cons.mp hkey with rfl | hkey
        · exact hlt
        · exact String.lt_trans hlt (hall.1 key hkey)
      · next hnot =>
        have hlt : m.1 < k := Std.lt_of_le_of_ne (String.not_lt.mp hnot) (Ne.symm hne)
        refine List.pairwise_cons.mpr ⟨fun key hkey => ?_, ih hall.2⟩
        obtain ⟨n, hn, rfl⟩ := List.mem_map.mp hkey
        rcases mem_of_mem_insertMember hn with rfl | hn
        · exact hlt
        · exact hall.1 n.1 (List.mem_map_of_mem hn)

/-- Members in the order of their keys make up an object as they are. -/
lemma ofMembers_of_sorted (h : (members.map (·.1)).Pairwise (· < ·)) :
    ofMembers members = .obj members := by
  have hfold : ∀ before rest : List (String × Value),
      ((before ++ rest).map (·.1)).Pairwise (· < ·) →
      rest.foldl (fun acc m => insertMember m.1 m.2 acc) before = before ++ rest := by
    intro before rest hsorted
    induction rest generalizing before with
    | nil => rw [List.foldl_nil, List.append_nil]
    | cons m rest ih =>
      have hbefore : ∀ n ∈ before, n.1 < m.1 := by
        intro n hn
        rw [List.map_append, List.pairwise_append] at hsorted
        exact hsorted.2.2 _ (List.mem_map_of_mem hn) _ (List.mem_map_of_mem List.mem_cons_self)
      rw [List.foldl_cons, insertMember_of_lt hbefore, ih _ (by simpa using hsorted)]
      simp
  rw [ofMembers]
  exact congrArg Value.obj (hfold [] members h)

/-- The members of an object are in the order of their keys, and each is one of those that it is
made of. -/
lemma exists_ofMembers (members : List (String × Value)) :
    ∃ all, ofMembers members = .obj all ∧ (all.map (·.1)).Pairwise (· < ·) ∧
      ∀ m ∈ all, m ∈ members := by
  have hfold : ∀ rest acc : List (String × Value), (∀ m ∈ rest, m ∈ members) →
      (acc.map (·.1)).Pairwise (· < ·) ∧ (∀ m ∈ acc, m ∈ members) →
      let all := rest.foldl (fun acc m => insertMember m.1 m.2 acc) acc
      (all.map (·.1)).Pairwise (· < ·) ∧ ∀ m ∈ all, m ∈ members := by
    intro rest
    induction rest with
    | nil => exact fun acc _ hacc => hacc
    | cons m rest ih =>
      intro acc hrest hacc
      refine ih _ (fun n hn => hrest n (List.mem_cons_of_mem _ hn))
        ⟨pairwise_insertMember hacc.1, fun n hn => ?_⟩
      rcases mem_of_mem_insertMember hn with rfl | hn
      · exact hrest m List.mem_cons_self
      · exact hacc.2 n hn
  exact ⟨_, rfl, hfold members [] (fun m hm => hm) ⟨List.Pairwise.nil, by simp⟩⟩

/-- Members in normal form make up an object in normal form. -/
lemma normal_ofMembers (h : ∀ m ∈ members, m.2.Normal) : (ofMembers members).Normal := by
  obtain ⟨all, hall, hsorted, hmem⟩ := exists_ofMembers members
  rw [hall]
  exact ⟨hsorted, normalMembers_iff.mpr fun m hm => h m (hmem m hm)⟩

end

mutual

/-- A value in normal form is its own normal form. -/
theorem normalize_of_normal : (v : Value) → v.Normal → v.normalize = v
  | .null, _ | .bool _, _ | .num _, _ | .str _, _ => rfl
  | .arr vs, h => congrArg Value.arr (normalizeItems_of_normal vs h)
  | .obj ms, h => by
    rw [normalize, normalizeMembers_of_normal ms h.2, ofMembers_of_sorted h.1]

theorem normalizeItems_of_normal : (vs : List Value) → NormalItems vs → normalizeItems vs = vs
  | [], _ => rfl
  | v :: vs, h => by
    rw [normalizeItems, normalize_of_normal v h.1, normalizeItems_of_normal vs h.2]

theorem normalizeMembers_of_normal : (ms : List (String × Value)) → NormalMembers ms →
    normalizeMembers ms = ms
  | [], _ => rfl
  | (_, v) :: ms, h => by
    rw [normalizeMembers, normalize_of_normal v h.1, normalizeMembers_of_normal ms h.2]

end

end Value

/-! ## Reading -/

namespace Tree

mutual

/-- **What is read is in normal form.** -/
theorem normal_of_read : (t : Tree) → {v : Value} → read t = .ok v → v.Normal
  | .null _ _, _, h => by
    cases h
    trivial
  | .bool _ _ _, _, h => by
    cases h
    trivial
  | .num _ _ _ _, _, h => by
    obtain ⟨n, -, rfl⟩ := map_eq_ok.mp h
    trivial
  | .str _ _ _ _, _, h => by
    obtain ⟨s, -, rfl⟩ := map_eq_ok.mp h
    trivial
  | .seq _ _ items, _, h => by
    rw [read] at h
    obtain ⟨-, -, h⟩ := bind_eq_ok.mp h
    obtain ⟨vs, hvs, h⟩ := bind_eq_ok.mp h
    cases h
    exact Value.normalItems_iff.mpr (normal_of_readItems items hvs)
  | .map _ _ members, _, h => by
    rw [read] at h
    obtain ⟨-, -, h⟩ := bind_eq_ok.mp h
    obtain ⟨ms, hms, h⟩ := bind_eq_ok.mp h
    cases h
    exact Value.normal_ofMembers (normal_of_readMembers members hms)
  | .none _ _, _, h => by cases h

theorem normal_of_readItems : (items : Items) → {vs : List Value} → readItems items = .ok vs →
    ∀ v ∈ vs, v.Normal
  | .nil (.closed _), _, h => by
    cases h
    exact fun v hv => absurd hv List.not_mem_nil
  | .nil (.cut _ _ _), _, h => by cases h
  | .cons head tail, _, h => by
    rw [readItems] at h
    obtain ⟨v, hv, h⟩ := bind_eq_ok.mp h
    obtain ⟨vs, hvs, h⟩ := bind_eq_ok.mp h
    cases h
    exact List.forall_mem_cons.mpr ⟨normal_of_read head hv, normal_of_readItems tail hvs⟩

theorem normal_of_readMembers : (members : Members) → {ms : List (String × Value)} →
    readMembers members = .ok ms → ∀ m ∈ ms, m.2.Normal
  | .nil (.closed _), _, h => by
    cases h
    exact fun m hm => absurd hm List.not_mem_nil
  | .nil (.cut _ _ _), _, h => by cases h
  | .cons key _ _ value tail, _, h => by
    rw [readMembers] at h
    obtain ⟨k, -, h⟩ := bind_eq_ok.mp h
    obtain ⟨v, hv, h⟩ := bind_eq_ok.mp h
    obtain ⟨ms, hms, h⟩ := bind_eq_ok.mp h
    cases h
    exact List.forall_mem_cons.mpr ⟨normal_of_read value hv, normal_of_readMembers tail hms⟩

end

mutual

/-- **A value is read in its normal form.** -/
theorem read_eq_normalize : (v : Value) → {t : Tree} → Shows v t → read t = .ok v.normalize
  | .null, _, .null => rfl
  | .bool _, _, .bool => rfl
  | .num _, _, .num => rfl
  | .str _, _, .str => rfl
  | .arr vs, _, .seq h => by
    rw [read, readItems_eq_normalize vs h]
    rfl
  | .obj ms, _, .map h => by
    rw [read, readMembers_eq_normalize ms h]
    rfl

theorem readItems_eq_normalize : (vs : List Value) → {items : Items} → ShowsItems vs items →
    readItems items = .ok (Value.normalizeItems vs)
  | [], _, .nil => rfl
  | v :: vs, _, .cons hv hvs => by
    rw [readItems, read_eq_normalize v hv, readItems_eq_normalize vs hvs]
    rfl

theorem readMembers_eq_normalize : (ms : List (String × Value)) → {members : Members} →
    ShowsMembers ms members → readMembers members = .ok (Value.normalizeMembers ms)
  | [], _, .nil => rfl
  | (_, v) :: ms, _, .cons hv hms => by
    rw [readMembers, read_eq_normalize v hv, readMembers_eq_normalize ms hms]
    rfl

end

/-- A value in normal form is read as it is. -/
lemma read_of_shows {v : Value} {t : Tree} (h : Shows v t) (hv : v.Normal) : read t = .ok v := by
  rw [read_eq_normalize v h, Value.normalize_of_normal v hv]

end Tree

/-- **A text that is cut into the tokens of a value is read as its normal form.** -/
theorem Value.parse_of_cuts {cs : List Char} {v : Value} (h : Lexer.Cuts cs v.tokens)
    (hdepth : v.depth ≤ depthLimit) : parse (cs.map .char) = .ok v.normalize := by
  obtain ⟨t, hparse, ht⟩ := Document.parse_of_cuts h hdepth
  rw [parse, hparse, Document.readWith, Tree.read_eq_normalize v ht]
  rfl

/-- A value that a text is read as is in normal form. -/
lemma Value.normal_of_parse {input : List Text.Symbol} {v : Value} (h : parse input = .ok v) :
    v.Normal := by
  rw [parse, Document.readWith] at h
  obtain ⟨w, hw, h⟩ := bind_eq_ok.mp h
  obtain ⟨-, -, h⟩ := bind_eq_ok.mp h
  cases h
  exact Tree.normal_of_read _ hw

end ContractConversion.Json
