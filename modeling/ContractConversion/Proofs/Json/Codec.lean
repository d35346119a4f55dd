import ContractConversion.Json.Tagged
import ContractConversion.Proofs.Json.Normal
import ContractConversion.Proofs.Json.Tree

/-!
# Codecs read what they write

`ReadsFrom read v a` says that a decoder gets `a` from any tree of the value `v`, wherever the tree
comes from, and that `v` can be read at all: its numbers are integers. There is one law for each way
to build a codec; for a record it asks that the fields have different names and read what they write
(`Fields.reads_decode`).
-/

namespace ContractConversion.Json

/-- The decoder gets `a` from the trees of `v`. -/
structure ReadsFrom {α : Type} (read : Decoder α) (v : Value) (a : α) : Prop where
  integral : v.Integral
  read_eq : ∀ origin t, Tree.Shows v t → read origin t = .ok a

/-- The codec reads `a` from what it writes. -/
def Codec.Reads {α : Type} (c : Codec α) (a : α) : Prop :=
  ReadsFrom c.decode (c.encode a) a

lemma ReadsFrom.map {α β : Type} {read : Decoder α} {v : Value} {a : α} (h : ReadsFrom read v a)
    (f : α → β) : ReadsFrom (fun origin t => (read origin t).map f) v (f a) :=
  ⟨h.integral, fun origin t ht => congrArg (Except.map f) (h.read_eq origin t ht)⟩

namespace Codec

variable {α : Type}

/-- A container that is not refused is entered. -/
lemma enter_false (origin : Origin) (start : ℕ) : enter origin false start = .ok () := by
  cases origin <;> rfl

lemma reads_any {v : Value} (h : v.Normal) (hv : v.Integral) : any.Reads v :=
  ⟨hv, fun _ _ ht => Tree.read_of_shows ht h⟩

lemma reads_string (s : String) : string.Reads s := by
  refine ⟨trivial, ?_⟩
  rintro origin t ⟨⟩
  rfl

lemma reads_bool (b : Bool) : bool.Reads b := by
  refine ⟨trivial, ?_⟩
  rintro origin t ⟨⟩
  rfl

lemma reads_natural {bits n : ℕ} (hbits : bits ≤ 64) (h : n < 2 ^ bits) (kind : String) :
    (natural bits kind).Reads n := by
  have hlimit : n < 2 ^ 64 := Nat.lt_of_lt_of_le h (Nat.pow_le_pow_right (by omega) hbits)
  refine ⟨⟨by omega, by omega⟩, ?_⟩
  rintro origin t ⟨⟩
  have hrange : (0 : ℤ) ≤ n ∧ (n : ℤ) < (Nat.pow 2 bits : ℕ) := by
    rw [Nat.pow_eq]
    omega
  exact if_pos hrange

lemma reads_written {expected : String} {format : α → String} {parse : String → Except String α}
    {a : α} (h : parse (format a) = .ok a) : (written expected format parse).Reads a := by
  refine ⟨trivial, ?_⟩
  rintro origin t ⟨⟩
  rw [written]
  dsimp only
  rw [h]

/-- The kind of a written name. -/
lemma decodeName_of_lookup {known : List (String × α)} {name : String} {a : α}
    (h : known.lookup name = some a) (origin : Origin) (start stop : ℕ) :
    decodeName known origin (.str (.ok name) .none start stop) = .ok a := by
  rw [decodeName]
  simp [bind, Except.bind, pick, h]

lemma reads_named {known : List (String × α)} {name : α → String} {a : α}
    (h : known.lookup (name a) = some a) : (named known name).Reads a := by
  refine ⟨trivial, ?_⟩
  intro origin t ht
  cases ht with
  | @str start stop => exact decodeName_of_lookup h origin start stop

/-- A value that is not written as null is read as a value. -/
lemma nullable_some {c : Codec α} {a : α} (h : c.Reads a) (hnull : c.encode a ≠ .null) :
    ReadsFrom (nullable c).decode (c.encode a) (some a) := by
  refine ⟨h.integral, fun origin t ht => ?_⟩
  have hread := h.read_eq origin t ht
  cases t with
  | null start stop =>
    generalize c.encode a = v at ht hnull
    cases ht
    exact absurd rfl hnull
  | _ =>
    rw [nullable]
    dsimp only
    rw [hread]
    rfl

lemma decodeItems_of_shows {c : Codec α} {xs : List α} (h : ∀ x ∈ xs, c.Reads x) {items : Items}
    (hitems : Tree.ShowsItems (xs.map c.encode) items) (origin : Origin) :
    decodeItems (c.decode origin) items = .ok xs := by
  induction xs generalizing items with
  | nil =>
    cases hitems
    rfl
  | cons x xs ih =>
    rw [List.map_cons] at hitems
    cases hitems with
    | cons hx hxs =>
      have hhead := (h x List.mem_cons_self).read_eq origin _ hx
      have htail := ih (fun y hy => h y (List.mem_cons_of_mem _ hy)) hxs
      rw [decodeItems, hhead, htail]
      rfl

lemma reads_list {c : Codec α} {xs : List α} (h : ∀ x ∈ xs, c.Reads x) : (list c).Reads xs := by
  constructor
  · exact Value.integralItems_iff.mpr (List.forall_mem_map.mpr fun x hx => (h x hx).integral)
  · rintro origin t ⟨⟩
    next hitems =>
      have hread := decodeItems_of_shows h hitems origin
      rw [list]
      dsimp only
      rw [enter_false, hread]
      rfl

end Codec

end ContractConversion.Json
