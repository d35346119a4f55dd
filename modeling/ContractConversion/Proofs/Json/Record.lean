import ContractConversion.Proofs.Json.Codec

/-!
# Records and tagged values read what they write

A record reads what it writes if its fields have different names and each field reads what it writes
(`Fields.Reads`); a field that is left out takes its default. A value of one of several kinds is
read from its name and its content.
-/

namespace ContractConversion.Json

/-! ## Fields -/

namespace Field

variable {α : Type} {name : String} {c : Codec α}

/-- The field reads what it writes, and a value that is left out is the default. -/
def Reads (f : Field α) (a : α) : Prop :=
  match f.write a with
  | some v => ReadsFrom f.read v a
  | none => f.absent = some a

/-- An optional field reads a value that is not written as null. -/
lemma reads_optional {x : Option α} (h : ∀ a, x = some a → c.Reads a ∧ c.encode a ≠ .null) :
    (optional name c).Reads x := by
  cases x with
  | none => rfl
  | some a =>
    obtain ⟨hreads, hnull⟩ := h a rfl
    exact Codec.nullable_some hreads hnull

end Field

namespace Fields

/-- Every field reads what it writes. -/
def Reads : {types : List Type} → Fields types → Tuple types → Prop
  | [], _, _ => True
  | _ :: _, (f, fields), (a, tuple) => f.Reads a ∧ Reads fields tuple

/-- What is written has the names of the fields. -/
lemma mem_names_of_mem_encode : {types : List Type} → (fields : Fields types) →
    (tuple : Tuple types) → {m : String × Value} → m ∈ encode fields tuple → m.1 ∈ names fields
  | [], _, _, _, h => absurd h List.not_mem_nil
  | _ :: _, (f, fields), (a, tuple), m, h => by
    rw [encode] at h
    rw [names]
    cases hwrite : f.write a with
    | none =>
      rw [hwrite] at h
      exact List.mem_cons_of_mem _ (mem_names_of_mem_encode fields tuple h)
    | some v =>
      rw [hwrite] at h
      rcases List.mem_cons.mp h with rfl | h
      · exact List.mem_cons_self
      · exact List.mem_cons_of_mem _ (mem_names_of_mem_encode fields tuple h)

section

variable {α : Type} {types : List Type} {f : Field α} {fields : Fields types}

/-- A member with another name does not fill the first slot. -/
lemma fill_other {key : String} (hkey : f.name ≠ key) (origin : Origin) (behind : ℕ) (value : Tree)
    (slot : Option α) (slots : Slots types) :
    @fill origin key behind value (α :: types) (f, fields) (slot, slots) =
      (fill origin key behind value fields slots).map (Option.map fun slots => (slot, slots)) := by
  conv => lhs; unfold fill
  rw [if_neg hkey]
  cases fill origin key behind value fields slots with
  | error fault => rfl
  | ok filled => cases filled <;> rfl

/-- Members with other names do not fill the first slot. -/
lemma decodeMembers_other {ms : List (String × Value)} (hkeys : ∀ m ∈ ms, f.name ≠ m.1)
    {members : Members} (hmembers : Tree.ShowsMembers ms members) (origin : Origin)
    (slot : Option α) (slots : Slots types) :
    @decodeMembers origin (α :: types) (f, fields) (slot, slots) members =
      (decodeMembers origin fields slots members).map fun (slots, stop) =>
        ((slot, slots), stop) := by
  induction ms generalizing members slots with
  | nil =>
    cases hmembers
    rfl
  | cons m ms ih =>
    cases hmembers with
    | @cons behind k v _ value tail hv hms =>
      have hkey : f.name ≠ k := hkeys (k, v) List.mem_cons_self
      have htail := fun slots => ih (fun n hn => hkeys n (List.mem_cons_of_mem _ hn)) hms slots
      simp only [decodeMembers, bind, Except.bind, fill_other hkey]
      cases fill origin k behind value fields slots with
      | error fault => rfl
      | ok filled =>
        cases filled with
        | some slots => exact htail slots
        | none =>
          simp only [Except.map, Option.map_none]
          cases value.skip with
          | error fault => rfl
          | ok _ => exact htail slots

end

/-- **The members of a record fill its slots**, so that its values are complete. -/
lemma decodeMembers_encode (origin : Origin) : {types : List Type} → (fields : Fields types) →
    (tuple : Tuple types) → fields.names.Nodup → fields.Reads tuple → {members : Members} →
    Tree.ShowsMembers (fields.encode tuple) members →
    ∃ slots stop, decodeMembers origin fields (empty types) members = .ok (slots, stop) ∧
      ∀ stop', complete stop' fields slots = .ok tuple
  | [], _, _, _, _, _, .nil => ⟨(), _, rfl, fun _ => rfl⟩
  | α :: types, (f, fields), (a, tuple), hnames, hreads, members, hmembers => by
    obtain ⟨hfield, hfields⟩ := hreads
    rw [names, List.nodup_cons] at hnames
    have hother : ∀ m ∈ encode fields tuple, f.name ≠ m.1 := fun m hm heq =>
      hnames.1 (heq ▸ mem_names_of_mem_encode fields tuple hm)
    rw [Field.Reads] at hfield
    rw [encode] at hmembers
    cases hwrite : f.write a with
    | none =>
      -- the field is left out, so its slot stays empty and its default is taken
      rw [hwrite] at hmembers hfield
      obtain ⟨slots, stop, hdecode, hcomplete⟩ :=
        decodeMembers_encode origin fields tuple hnames.2 hfields hmembers
      refine ⟨(none, slots), stop, ?_, fun stop' => ?_⟩
      · rw [empty, decodeMembers_other hother hmembers, hdecode]
        rfl
      · rw [complete, Option.none_or, hfield, hcomplete]
        rfl
    | some v =>
      rw [hwrite] at hmembers hfield
      cases hmembers with
      | @cons behind _ _ _ value tail hv htail =>
        obtain ⟨slots, stop, hdecode, hcomplete⟩ :=
          decodeMembers_encode origin fields tuple hnames.2 hfields htail
        have hread : f.read origin value = .ok a := hfield.read_eq origin value hv
        refine ⟨(some a, slots), stop, ?_, fun stop' => ?_⟩
        · simp only [decodeMembers, bind, Except.bind, empty, fill, if_true, hread, pure,
            Except.pure]
          rw [decodeMembers_other hother htail, hdecode]
          rfl
        · rw [complete, Option.some_or, hcomplete]
          rfl

section

variable {types : List Type} {fields : Fields types} {tuple : Tuple types}

/-- The numbers of a record are those of its fields. -/
lemma integral_encode : {types : List Type} → (fields : Fields types) → (tuple : Tuple types) →
    fields.Reads tuple → Value.Integral (.obj (fields.encode tuple))
  | [], _, _, _ => trivial
  | _ :: _, (f, fields), (a, tuple), ⟨hfield, hfields⟩ => by
    have hrest := integral_encode fields tuple hfields
    rw [Field.Reads] at hfield
    rw [encode]
    cases hwrite : f.write a with
    | none => exact hrest
    | some v =>
      rw [hwrite] at hfield
      exact ⟨hfield.integral, hrest⟩

lemma decodeObject_encode (hnames : fields.names.Nodup) (hreads : fields.Reads tuple)
    {members : Members} (hmembers : Tree.ShowsMembers (fields.encode tuple) members)
    (origin : Origin) (start : ℕ) :
    decodeObject origin fields false start members = .ok tuple := by
  obtain ⟨slots, stop, hdecode, hcomplete⟩ :=
    decodeMembers_encode origin fields tuple hnames hreads hmembers
  rw [decodeObject, Codec.enter_false, hdecode]
  exact hcomplete stop

/-- **A record is read from its object.** -/
theorem reads_decode (hnames : fields.names.Nodup) (hreads : fields.Reads tuple) (name : String) :
    ReadsFrom (fields.decode name) (.obj (fields.encode tuple)) tuple := by
  refine ⟨integral_encode fields tuple hreads, fun origin t ht => ?_⟩
  cases ht with
  | map hmembers => exact decodeObject_encode hnames hreads hmembers origin _

theorem reads_decodeStrict (hnames : fields.names.Nodup) (hreads : fields.Reads tuple)
    (kind : String) : ReadsFrom (fields.decodeStrict kind) (.obj (fields.encode tuple)) tuple := by
  refine ⟨integral_encode fields tuple hreads, fun origin t ht => ?_⟩
  cases ht with
  | map hmembers => exact decodeObject_encode hnames hreads hmembers origin _

end

end Fields

/-- A record type reads what it writes if its fields do. -/
theorem Codec.reads_record {α : Type} {types : List Type} {name : String} {fields : Fields types}
    {toTuple : α → Tuple types} {ofTuple : Tuple types → α} {a : α}
    (hnames : fields.names.Nodup) (hreads : fields.Reads (toTuple a))
    (hof : ofTuple (toTuple a) = a) : (record types name fields toTuple ofTuple).Reads a := by
  have hfields := (Fields.reads_decode hnames hreads name).map ofTuple
  rw [hof] at hfields
  exact hfields

/-! ## Tagged values -/

namespace Tagged.Layout

variable {α : Type} {name : String}

/-- **A kind with a content is read from its name and its content.** -/
theorem reads_content (layout : Layout α) {read : Decoder α} {v : Value} {a : α}
    (htag : layout.content ≠ layout.tag)
    (hlookup : layout.kinds.lookup name = some (.content read)) (hread : ReadsFrom read v a) :
    ReadsFrom layout.decode (.obj [(layout.tag, .str name), (layout.content, v)]) a := by
  refine ⟨⟨trivial, hread.integral, trivial⟩, fun origin t ht => ?_⟩
  cases ht with
  | map hmembers =>
    cases hmembers with
    | cons hname hmembers =>
      cases hname
      cases hmembers with
      | cons hv hmembers =>
        cases hmembers
        have hpayload := hread.read_eq origin _ hv
        have hname := Codec.decodeName_of_lookup hlookup origin
        rw [decode]
        rw [Codec.enter_false]
        simp only [bind, Except.bind, decodeObject, next, if_true, pure, Except.pure, hname,
          if_neg htag, Payload.decode, hpayload, finish]

/-- A kind without a content is read from its name. -/
theorem reads_unit (layout : Layout α) {kind : String} {a : α}
    (hlookup : layout.kinds.lookup name = some (.unit kind a)) :
    ReadsFrom layout.decode (.obj [(layout.tag, .str name)]) a := by
  refine ⟨⟨trivial, trivial⟩, fun origin t ht => ?_⟩
  cases ht with
  | map hmembers =>
    cases hmembers with
    | cons hname hmembers =>
      cases hname
      cases hmembers
      have hname := Codec.decodeName_of_lookup hlookup origin
      rw [decode]
      rw [Codec.enter_false]
      simp only [bind, Except.bind, decodeObject, next, if_true, pure, Except.pure, hname]

end Tagged.Layout

end ContractConversion.Json
