import ContractConversion.Proofs.Json.Decoding
import ContractConversion.Proofs.Json.Normal

/-!
# How deep a value can be that was read

`Tree.Standing depth t` says that the tree stands inside `depth` containers of its text, so that
every container of it beyond the limit is refused. The tree of a text stands inside none
(`Document.standing_parse`), and a value that is read from a tree is within the limit together with
the containers around the tree (`Tree.depth_of_read`).
-/

namespace ContractConversion.Json

namespace Value

variable {d : ℕ}

lemma depth_arr_le {vs : List Value} : (arr vs).depth ≤ d + 1 ↔ ∀ v ∈ vs, v.depth ≤ d := by
  rw [depth, Nat.add_le_add_iff_right]
  induction vs with
  | nil => simp [depthItems]
  | cons v rest ih => rw [depthItems, Nat.max_le, ih, List.forall_mem_cons]

lemma depth_obj_le {ms : List (String × Value)} :
    (obj ms).depth ≤ d + 1 ↔ ∀ m ∈ ms, m.2.depth ≤ d := by
  rw [depth, Nat.add_le_add_iff_right]
  induction ms with
  | nil => simp [depthMembers]
  | cons m rest ih => rw [depthMembers, Nat.max_le, ih, List.forall_mem_cons]

end Value

namespace Tree

mutual

/-- The tree stands inside so many containers: a container of it that is not refused is within the
limit. -/
def Standing : ℕ → Tree → Prop
  | depth, .seq tooDeep _ items =>
    (tooDeep = false → depth < depthLimit) ∧ StandingItems (depth + 1) items
  | depth, .map tooDeep _ members =>
    (tooDeep = false → depth < depthLimit) ∧ StandingMembers (depth + 1) members
  | _, _ => True

/-- All items stand inside so many containers. -/
def StandingItems : ℕ → Items → Prop
  | _, .nil _ => True
  | depth, .cons head tail => Standing depth head ∧ StandingItems depth tail

/-- The values of all members stand inside so many containers. -/
def StandingMembers : ℕ → Members → Prop
  | _, .nil _ => True
  | depth, .cons _ _ _ value tail => Standing depth value ∧ StandingMembers depth tail

end

/-! ## The tree of a text -/

mutual

/-- What is read of lexemes inside so many containers stands inside them. -/
theorem standing_ofLexemes : (fuel depth : ℕ) → (ls : List Lexeme) →
    Standing depth (ofLexemes fuel depth ls).1
  | 0, _, _ => by
    unfold ofLexemes
    trivial
  | _ + 1, _, [] => by
    unfold ofLexemes
    trivial
  | fuel + 1, depth, l :: ls => by
    unfold ofLexemes
    split
    case h_7 => exact ⟨by simp, standing_itemsOf fuel (depth + 1) true ls⟩
    case h_8 => exact ⟨by simp, standing_membersOf fuel (depth + 1) true ls⟩
    all_goals trivial

theorem standing_itemsOf : (fuel depth : ℕ) → (first : Bool) → (ls : List Lexeme) →
    StandingItems depth (itemsOf fuel depth first ls).1
  | 0, _, _, _ => by
    unfold itemsOf
    trivial
  | _ + 1, _, _, [] => by
    unfold itemsOf
    trivial
  | fuel + 1, depth, first, l :: ls => by
    unfold itemsOf
    split
    · trivial
    · trivial
    · split
      · exact ⟨standing_ofLexemes fuel depth _, standing_itemsOf fuel depth false _⟩
      · split
        · split
          · trivial
          · trivial
          · exact ⟨standing_ofLexemes fuel depth _, standing_itemsOf fuel depth false _⟩
        · trivial

theorem standing_membersOf : (fuel depth : ℕ) → (first : Bool) → (ls : List Lexeme) →
    StandingMembers depth (membersOf fuel depth first ls).1
  | 0, _, _, _ => by
    unfold membersOf
    trivial
  | _ + 1, _, _, [] => by
    unfold membersOf
    trivial
  | fuel + 1, depth, first, l :: ls => by
    unfold membersOf
    split
    · trivial
    · trivial
    · exact standing_memberOf fuel depth _ _ _
    · trivial
    · dsimp only
      split
      · trivial
      · split
        · exact standing_memberOf fuel depth _ _ _
        all_goals trivial
    · trivial

theorem standing_memberOf : (fuel depth : ℕ) → (key : Except Fault String) →
    (skip : Option Fault) → (ls : List Lexeme) →
    StandingMembers depth (memberOf fuel depth key skip ls).1
  | 0, _, _, _, _ => by
    unfold memberOf
    trivial
  | _ + 1, _, _, _, [] => by
    unfold memberOf
    trivial
  | fuel + 1, depth, key, skip, l :: ls => by
    unfold memberOf
    split
    · exact ⟨standing_ofLexemes fuel depth _, standing_membersOf fuel depth false _⟩
    all_goals exact ⟨trivial, trivial⟩

end

/-! ## Parts and values -/

lemma all_of_standingItems {depth : ℕ} : (items : Items) → StandingItems depth items →
    items.All (Standing depth)
  | .nil _, _ => trivial
  | .cons _ tail, h => ⟨h.1, all_of_standingItems tail h.2⟩

lemma all_of_standingMembers {depth : ℕ} : (members : Members) → StandingMembers depth members →
    members.All (Standing depth)
  | .nil _, _ => trivial
  | .cons _ _ _ _ tail, h => ⟨h.1, all_of_standingMembers tail h.2⟩

/-- The parts of a tree stand inside one container more. -/
lemma Standing.parts {depth : ℕ} {t : Tree} (h : Standing depth t) :
    t.Parts (Standing (depth + 1)) := by
  cases t with
  | seq tooDeep start items => exact all_of_standingItems items h.2
  | map tooDeep start members => exact all_of_standingMembers members h.2
  | _ => trivial

/-- A container that is not refused is within the limit. -/
lemma lt_of_refuse {tooDeep : Bool} {start depth : ℕ} (h : refuse tooDeep start = .ok ())
    (hstanding : tooDeep = false → depth < depthLimit) : depth < depthLimit := by
  cases tooDeep with
  | false => exact hstanding rfl
  | true => cases h

mutual

/-- **A value that is read is within the limit**, with the containers around it. -/
theorem depth_of_read : (t : Tree) → {depth : ℕ} → {v : Value} → Standing depth t →
    depth ≤ depthLimit → read t = .ok v → depth + v.depth ≤ depthLimit
  | .null _ _, _, _, _, hle, h => by
    cases h
    exact hle
  | .bool _ _ _, _, _, _, hle, h => by
    cases h
    exact hle
  | .num _ _ _ _, _, _, _, hle, h => by
    obtain ⟨n, -, rfl⟩ := map_eq_ok.mp h
    exact hle
  | .str _ _ _ _, _, _, _, hle, h => by
    obtain ⟨s, -, rfl⟩ := map_eq_ok.mp h
    exact hle
  | .seq _ _ items, depth, _, hstanding, _, h => by
    rw [read] at h
    obtain ⟨⟨⟩, hrefuse, h⟩ := bind_eq_ok.mp h
    obtain ⟨vs, hvs, h⟩ := bind_eq_ok.mp h
    cases h
    have hlt := lt_of_refuse hrefuse hstanding.1
    have hitems := depth_of_readItems items hstanding.2 hlt hvs
    have hdepth : (Value.arr vs).depth ≤ depthLimit - (depth + 1) + 1 :=
      Value.depth_arr_le.mpr fun v hv => by have := hitems v hv; omega
    omega
  | .map _ _ members, depth, _, hstanding, _, h => by
    rw [read] at h
    obtain ⟨⟨⟩, hrefuse, h⟩ := bind_eq_ok.mp h
    obtain ⟨ms, hms, h⟩ := bind_eq_ok.mp h
    cases h
    have hlt := lt_of_refuse hrefuse hstanding.1
    have hmembers := depth_of_readMembers members hstanding.2 hlt hms
    obtain ⟨all, hall, -, hmem⟩ := Value.exists_ofMembers ms
    have hdepth : (Value.obj all).depth ≤ depthLimit - (depth + 1) + 1 :=
      Value.depth_obj_le.mpr fun m hm => by have := hmembers m (hmem m hm); omega
    rw [hall]
    omega
  | .none _ _, _, _, _, _, h => by cases h

theorem depth_of_readItems : (items : Items) → {depth : ℕ} → {vs : List Value} →
    StandingItems depth items → depth ≤ depthLimit → readItems items = .ok vs →
    ∀ v ∈ vs, depth + v.depth ≤ depthLimit
  | .nil (.closed _), _, _, _, _, h => by
    cases h
    exact fun v hv => absurd hv List.not_mem_nil
  | .nil (.cut _ _ _), _, _, _, _, h => by cases h
  | .cons head tail, _, _, hstanding, hle, h => by
    rw [readItems] at h
    obtain ⟨v, hv, h⟩ := bind_eq_ok.mp h
    obtain ⟨vs, hvs, h⟩ := bind_eq_ok.mp h
    cases h
    exact List.forall_mem_cons.mpr ⟨depth_of_read head hstanding.1 hle hv,
      depth_of_readItems tail hstanding.2 hle hvs⟩

theorem depth_of_readMembers : (members : Members) → {depth : ℕ} → {ms : List (String × Value)} →
    StandingMembers depth members → depth ≤ depthLimit → readMembers members = .ok ms →
    ∀ m ∈ ms, depth + m.2.depth ≤ depthLimit
  | .nil (.closed _), _, _, _, _, h => by
    cases h
    exact fun m hm => absurd hm List.not_mem_nil
  | .nil (.cut _ _ _), _, _, _, _, h => by cases h
  | .cons key _ _ value tail, _, _, hstanding, hle, h => by
    rw [readMembers] at h
    obtain ⟨k, -, h⟩ := bind_eq_ok.mp h
    obtain ⟨v, hv, h⟩ := bind_eq_ok.mp h
    obtain ⟨ms, hms, h⟩ := bind_eq_ok.mp h
    cases h
    exact List.forall_mem_cons.mpr ⟨depth_of_read value hstanding.1 hle hv,
      depth_of_readMembers tail hstanding.2 hle hms⟩

end

/-- A value that is read as null stands there as null. -/
lemma eq_null_of_read {t : Tree} (h : read t = .ok .null) : ∃ start stop, t = .null start stop := by
  cases t with
  | null start stop => exact ⟨start, stop, rfl⟩
  | bool b start stop => cases h
  | num n skip start stop =>
    obtain ⟨m, -, hm⟩ := map_eq_ok.mp h
    cases hm
  | str s skip start stop =>
    obtain ⟨s', -, hs⟩ := map_eq_ok.mp h
    cases hs
  | seq tooDeep start items =>
    obtain ⟨-, -, h⟩ := bind_eq_ok.mp h
    obtain ⟨vs, -, h⟩ := bind_eq_ok.mp h
    cases h
  | map tooDeep start members =>
    obtain ⟨-, -, h⟩ := bind_eq_ok.mp h
    obtain ⟨ms, -, h⟩ := bind_eq_ok.mp h
    cases h
  | none fault start => cases h

end Tree

/-- The tree of a text stands inside no container. -/
lemma Document.standing_parse (input : List Text.Symbol) : Tree.Standing 0 (parse input).root := by
  have hroot := Tree.standing_ofLexemes (2 * (lexemes input).length + 2) 0 (lexemes input)
  rw [parse]
  dsimp only
  split
  · exact hroot
  · split <;> exact hroot

end ContractConversion.Json
