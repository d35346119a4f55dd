import ContractConversion.Json.Tagged
import ContractConversion.Proofs.Except
import Mathlib.Data.Nat.Notation

/-!
# Where decoded values come from

What a record, a list or a tagged value is read as comes from the parts of its tree: the members of
an object or the items of an array. `Tree.Parts P t` says that `P` holds of all parts of a tree.
Then every field of a record that was read is read from a part with `P`, or it is the default of its
field (`Fields.from_of_decode`), and a tagged value has its content from such a part
(`Tagged.Layout.from_of_decode`).
-/

namespace ContractConversion.Json

/-! ## The parts of a tree -/

/-- The predicate holds of all items. -/
def Items.All (P : Tree → Prop) : Items → Prop
  | .nil _ => True
  | .cons head tail => P head ∧ tail.All P

/-- The predicate holds of the values of all members. -/
def Members.All (P : Tree → Prop) : Members → Prop
  | .nil _ => True
  | .cons _ _ _ value tail => P value ∧ tail.All P

/-- The predicate holds of all parts of the tree. -/
def Tree.Parts (P : Tree → Prop) : Tree → Prop
  | .seq _ _ items => items.All P
  | .map _ _ members => members.All P
  | _ => True

variable {P : Tree → Prop} {origin : Origin}

/-! ## Records -/

namespace Fields

/-- The value of every field was read from a part, or it is the default. -/
def From (P : Tree → Prop) (origin : Origin) :
    {types : List Type} → Fields types → Tuple types → Prop
  | [], _, _ => True
  | _ :: _, (f, fields), (a, tuple) =>
    ((∃ t, P t ∧ f.read origin t = .ok a) ∨ f.absent = some a) ∧ From P origin fields tuple

/-- What fills a slot was read from a part. -/
def SlotsFrom (P : Tree → Prop) (origin : Origin) :
    {types : List Type} → Fields types → Slots types → Prop
  | [], _, _ => True
  | _ :: _, (f, fields), (slot, slots) =>
    (∀ a, slot = some a → ∃ t, P t ∧ f.read origin t = .ok a) ∧ SlotsFrom P origin fields slots

lemma slotsFrom_empty : {types : List Type} → (fields : Fields types) →
    fields.SlotsFrom P origin (empty types)
  | [], _ => trivial
  | _ :: _, (_, fields) => ⟨fun _ h => absurd h (by simp), slotsFrom_empty fields⟩

lemma slotsFrom_fill {key : String} {behind : ℕ} {value : Tree} (hP : P value) :
    {types : List Type} → {fields : Fields types} → {slots slots' : Slots types} →
    fields.SlotsFrom P origin slots →
    fill origin key behind value fields slots = .ok (some slots') →
    fields.SlotsFrom P origin slots'
  | [], _, _, _, _, h => by cases h
  | _ :: _, (f, fields), (slot, slots), slots', hslots, h => by
    unfold fill at h
    split at h
    · split at h
      · cases h
      · obtain ⟨a, ha, h⟩ := bind_eq_ok.mp h
        cases h
        refine ⟨fun b hb => ?_, hslots.2⟩
        obtain rfl := Option.some.inj hb
        exact ⟨value, hP, ha⟩
    · obtain ⟨filled, hfilled, h⟩ := bind_eq_ok.mp h
      cases filled with
      | none => cases h
      | some filled =>
        cases h
        exact ⟨hslots.1, slotsFrom_fill hP hslots.2 hfilled⟩

lemma slotsFrom_decodeMembers {types : List Type} {fields : Fields types} :
    (members : Members) → {slots slots' : Slots types} → {stop : ℕ} → members.All P →
    fields.SlotsFrom P origin slots →
    decodeMembers origin fields slots members = .ok (slots', stop) →
    fields.SlotsFrom P origin slots'
  | .nil (.closed _), _, _, _, _, hslots, h => by
    cases h
    exact hslots
  | .nil (.cut _ _ _), _, _, _, _, _, h => by cases h
  | .cons key _ behind value tail, slots, slots', _, hP, hslots, h => by
    rw [decodeMembers] at h
    obtain ⟨name, -, h⟩ := bind_eq_ok.mp h
    obtain ⟨filled, hfilled, h⟩ := bind_eq_ok.mp h
    cases filled with
    | some filled =>
      exact slotsFrom_decodeMembers tail hP.2 (slotsFrom_fill hP.1 hslots hfilled) h
    | none =>
      obtain ⟨-, -, h⟩ := bind_eq_ok.mp h
      exact slotsFrom_decodeMembers tail hP.2 hslots h

/-- A record is complete with what fills its slots and the defaults of its fields. -/
lemma from_of_complete {stop : ℕ} : {types : List Type} → {fields : Fields types} →
    {slots : Slots types} → {tuple : Tuple types} → fields.SlotsFrom P origin slots →
    complete stop fields slots = .ok tuple → fields.From P origin tuple
  | [], _, _, _, _, _ => trivial
  | _ :: _, (f, fields), (slot, slots), tuple, hslots, h => by
    unfold complete at h
    split at h
    · next a ha =>
      obtain ⟨rest, hrest, h⟩ := bind_eq_ok.mp h
      cases h
      refine ⟨?_, from_of_complete hslots.2 hrest⟩
      cases slot with
      | some b =>
        obtain rfl := Option.some.inj ha
        exact Or.inl (hslots.1 b rfl)
      | none => exact Or.inr ha
    · cases h

lemma from_of_decodeItems {expected : String} : {types : List Type} → {fields : Fields types} →
    {index : ℕ} → {items : Items} → {tuple : Tuple types} → items.All P →
    decodeItems origin expected fields index items = .ok tuple → fields.From P origin tuple
  | [], _, _, _, _, _, _ => trivial
  | _ :: _, (f, fields), index, items, tuple, hP, h => by
    cases items with
    | cons head tail =>
      obtain ⟨a, ha, h⟩ := bind_eq_ok.mp h
      obtain ⟨rest, hrest, h⟩ := bind_eq_ok.mp h
      cases h
      exact ⟨Or.inl ⟨head, hP.1, ha⟩, from_of_decodeItems hP.2 hrest⟩
    | nil ending =>
      cases ending with
      | cut next close skip => cases h
      | closed stop =>
        unfold decodeItems at h
        dsimp only at h
        split at h
        · next a ha =>
          obtain ⟨rest, hrest, h⟩ := bind_eq_ok.mp h
          cases h
          exact ⟨Or.inr ha, from_of_decodeItems hP hrest⟩
        · cases h

lemma from_of_decodeObject {types : List Type} {fields : Fields types} {tooDeep : Bool} {start : ℕ}
    {members : Members} {tuple : Tuple types} (hP : members.All P)
    (h : decodeObject origin fields tooDeep start members = .ok tuple) :
    fields.From P origin tuple := by
  obtain ⟨-, -, h⟩ := bind_eq_ok.mp h
  obtain ⟨⟨slots, stop⟩, hslots, h⟩ := bind_eq_ok.mp h
  exact from_of_complete (slotsFrom_decodeMembers members hP (slotsFrom_empty fields) hslots) h

/-- **Every field of a record is read from a part of its tree, or has its default.** -/
theorem from_of_decode {types : List Type} {fields : Fields types} {name : String} {t : Tree}
    {tuple : Tuple types} (hP : t.Parts P) (h : fields.decode name origin t = .ok tuple) :
    fields.From P origin tuple := by
  cases t with
  | map tooDeep start members => exact from_of_decodeObject hP h
  | seq tooDeep start items =>
    obtain ⟨-, -, h⟩ := bind_eq_ok.mp h
    exact from_of_decodeItems hP h
  | _ => cases h

lemma from_of_decodeStrict {types : List Type} {fields : Fields types} {kind : String} {t : Tree}
    {tuple : Tuple types} (hP : t.Parts P) (h : fields.decodeStrict kind origin t = .ok tuple) :
    fields.From P origin tuple := by
  cases t with
  | map tooDeep start members => exact from_of_decodeObject hP h
  | _ => cases h

end Fields

/-- A record that was read is that of values from the parts of its tree. -/
theorem Codec.from_of_record {α : Type} {types : List Type} {name : String} {fields : Fields types}
    {toTuple : α → Tuple types} {ofTuple : Tuple types → α} {t : Tree} {a : α} (hP : t.Parts P)
    (h : (record types name fields toTuple ofTuple).decode origin t = .ok a) :
    ∃ tuple, fields.From P origin tuple ∧ ofTuple tuple = a := by
  obtain ⟨tuple, htuple, hof⟩ := map_eq_ok.mp h
  exact ⟨tuple, Fields.from_of_decode hP htuple, hof⟩

/-! ## Optional members -/

/-- A value of an optional member is read from something other than null. -/
lemma Codec.from_of_nullable {α : Type} {c : Codec α} {t : Tree} {a : α}
    (h : (nullable c).decode origin t = .ok (some a)) :
    (∀ start stop, t ≠ .null start stop) ∧ c.decode origin t = .ok a := by
  cases t with
  | null start stop => cases h
  | _ =>
    obtain ⟨b, hb, hsome⟩ := map_eq_ok.mp h
    cases hsome
    exact ⟨fun _ _ => by simp, hb⟩

/-! ## Lists -/

lemma Codec.from_of_decodeItems {α : Type} {decode : Tree → Except Fault α} :
    (items : Items) → {xs : List α} → items.All P → decodeItems decode items = .ok xs →
    ∀ x ∈ xs, ∃ t, P t ∧ decode t = .ok x
  | .nil (.closed _), _, _, h => by
    cases h
    exact fun x hx => absurd hx List.not_mem_nil
  | .nil (.cut _ _ _), _, _, h => by cases h
  | .cons head tail, _, hP, h => by
    rw [decodeItems] at h
    obtain ⟨x, hx, h⟩ := bind_eq_ok.mp h
    obtain ⟨xs, hxs, h⟩ := bind_eq_ok.mp h
    cases h
    exact List.forall_mem_cons.mpr ⟨⟨head, hP.1, hx⟩, from_of_decodeItems tail hP.2 hxs⟩

/-- Every value of a list is read from a part of its tree. -/
lemma Codec.from_of_list {α : Type} {c : Codec α} {t : Tree} {xs : List α} (hP : t.Parts P)
    (h : (list c).decode origin t = .ok xs) : ∀ x ∈ xs, ∃ t, P t ∧ c.decode origin t = .ok x := by
  cases t with
  | seq tooDeep start items =>
    obtain ⟨-, -, h⟩ := bind_eq_ok.mp h
    exact from_of_decodeItems items hP h
  | _ => cases h

/-! ## Tagged values -/

namespace Codec

variable {α : Type} {known : List (String × α)} {a : α}

lemma mem_of_pick {name : String} {offset : ℕ} (h : pick known name offset = .ok a) :
    (name, a) ∈ known := by
  rw [pick] at h
  split at h
  · next b hb =>
    obtain rfl := Except.ok.inj h
    obtain ⟨before, after, rfl, -⟩ := List.lookup_eq_some_iff.mp hb
    exact List.mem_append_right before List.mem_cons_self
  · cases h

lemma mem_of_decodeNameObject {start : ℕ} {members : Members}
    (h : decodeNameObject known origin start members = .ok a) :
    ∃ name, (name, a) ∈ known := by
  cases members with
  | nil ending =>
    cases ending with
    | closed stop => cases origin <;> cases h
    | cut next close skip => cases h
  | cons key skipKey behind value tail =>
    obtain ⟨name, -, h⟩ := bind_eq_ok.mp h
    refine ⟨name, ?_⟩
    split at h
    · obtain ⟨b, hb, h⟩ := bind_eq_ok.mp h
      obtain ⟨-, -, h⟩ := bind_eq_ok.mp h
      split at h
      · obtain rfl := Except.ok.inj h
        exact mem_of_pick hb
      · split at h <;> cases h
      · cases h
    · obtain ⟨b, hb, h⟩ := bind_eq_ok.mp h
      obtain ⟨-, -, h⟩ := bind_eq_ok.mp h
      obtain rfl := Except.ok.inj h
      exact mem_of_pick hb
    · cases h

/-- A name that was read is a known one. -/
lemma mem_of_decodeName {t : Tree} (h : decodeName known origin t = .ok a) :
    ∃ name, (name, a) ∈ known := by
  unfold decodeName at h
  split at h
  · obtain ⟨name, -, h⟩ := bind_eq_ok.mp h
    exact ⟨name, mem_of_pick h⟩
  · obtain ⟨-, -, h⟩ := bind_eq_ok.mp h
    exact mem_of_decodeNameObject h
  · cases h
  · cases h
  · exact mem_of_decodeNameObject h
  · cases h

end Codec

namespace Tagged

variable {α : Type} {layout : Layout α} {a : α}

/-- The predicate holds of the member's value and of all members behind it. -/
def Relevant.All (P : Tree → Prop) : Relevant → Prop
  | .tag value _ tail | .content value _ tail => P value ∧ tail.All P
  | .finished _ => True

/-- The kind gives the value, from a part of a tree if it has a content. -/
def Payload.From (P : Tree → Prop) : Payload α → α → Prop
  | .unit _ b, a => b = a
  | .content read, a => ∃ origin t, P t ∧ read origin t = .ok a

lemma Payload.from_of_decode {payload : Payload α} {t : Tree} (hP : P t)
    (h : payload.decode origin t = .ok a) : payload.From P a := by
  cases payload with
  | unit kind b =>
    cases t with
    | null start stop => exact Except.ok.inj h
    | _ => cases h
  | content read => exact ⟨origin, t, hP, h⟩

namespace Layout

lemma all_of_next : (members : Members) → {found : Relevant} → members.All P →
    layout.next members = .ok found → found.All P
  | .nil (.closed _), _, _, h => by
    cases h
    trivial
  | .nil (.cut _ _ _), _, _, h => by cases h
  | .cons key _ behind value tail, _, hP, h => by
    rw [next] at h
    obtain ⟨name, -, h⟩ := bind_eq_ok.mp h
    split at h
    · cases h
      exact hP
    · split at h
      · cases h
        exact hP
      · obtain ⟨-, -, h⟩ := bind_eq_ok.mp h
        exact all_of_next tail hP.2 h

lemma eq_of_finish {b : α} {members : Members} (h : layout.finish a members = .ok b) : a = b := by
  obtain ⟨found, -, h⟩ := bind_eq_ok.mp h
  cases found with
  | finished stop => exact Except.ok.inj h
  | _ => cases h

/-- **A value that is read is that of one of the kinds**, read from a part of the tree. -/
theorem from_of_decode {t : Tree} (hP : t.Parts P) (h : layout.decode origin t = .ok a) :
    ∃ name payload, (name, payload) ∈ layout.kinds ∧ payload.From P a := by
  cases t with
  | map tooDeep start members =>
    obtain ⟨-, -, h⟩ := bind_eq_ok.mp h
    obtain ⟨first, hfirst, h⟩ := bind_eq_ok.mp h
    have hall := all_of_next members hP hfirst
    cases first with
    | finished stop => cases h
    | tag name behind tail =>
      obtain ⟨payload, hpayload, h⟩ := bind_eq_ok.mp h
      obtain ⟨n, hn⟩ := Codec.mem_of_decodeName hpayload
      refine ⟨n, payload, hn, ?_⟩
      obtain ⟨second, hsecond, h⟩ := bind_eq_ok.mp h
      have hall' := all_of_next tail hall.2 hsecond
      cases second with
      | tag name behind tail => cases h
      | content value behind tail =>
        obtain ⟨b, hb, h⟩ := bind_eq_ok.mp h
        obtain rfl := eq_of_finish h
        exact Payload.from_of_decode hall'.1 hb
      | finished stop =>
        cases payload with
        | unit kind b => exact Except.ok.inj h
        | content read => cases h
    | content value behind tail =>
      -- the content stood first and was set aside
      obtain ⟨-, -, h⟩ := bind_eq_ok.mp h
      obtain ⟨second, hsecond, h⟩ := bind_eq_ok.mp h
      cases second with
      | tag name behind tail =>
        obtain ⟨payload, hpayload, h⟩ := bind_eq_ok.mp h
        obtain ⟨n, hn⟩ := Codec.mem_of_decodeName hpayload
        obtain ⟨b, hb, h⟩ := bind_eq_ok.mp h
        obtain rfl := eq_of_finish h
        exact ⟨n, payload, hn, Payload.from_of_decode hall.1 hb⟩
      | content value behind tail => cases h
      | finished stop => cases h
  | seq tooDeep start items =>
    obtain ⟨-, -, h⟩ := bind_eq_ok.mp h
    cases items with
    | nil ending => cases ending <;> cases h
    | cons name tail =>
      obtain ⟨payload, hpayload, h⟩ := bind_eq_ok.mp h
      obtain ⟨n, hn⟩ := Codec.mem_of_decodeName hpayload
      refine ⟨n, payload, hn, ?_⟩
      cases tail with
      | nil ending => cases ending <;> cases h
      | cons value tail =>
        obtain ⟨b, hb, h⟩ := bind_eq_ok.mp h
        obtain ⟨-, -, h⟩ := bind_eq_ok.mp h
        obtain rfl := Except.ok.inj h
        exact Payload.from_of_decode hP.2.1 hb
  | _ => cases h

end Layout
end Tagged

end ContractConversion.Json
