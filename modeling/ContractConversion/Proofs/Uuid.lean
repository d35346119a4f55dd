import ContractConversion.Proofs.Text.Digits
import ContractConversion.Uuid

/-!
# Identifiers are read back

The written form of an identifier is its digits in five groups (`toList_format`). It is read by the
third of the forms that `Uuid.parse` tries: it is neither 32 digits, since it has hyphens, nor does
it stand between braces or behind a name, since it starts with a digit.
-/

namespace ContractConversion.Uuid

open Text (hexValue? hexValue?_digitChar)

/-! ## Digits -/

lemma mapM_hexValue?_digits (ds : List (Fin 16)) :
    (ds.map fun d => Nat.digitChar d.val).mapM hexValue? = some ds := by
  induction ds with
  | nil => rfl
  | cons d ds ih =>
    rw [List.map_cons, List.mapM_cons, hexValue?_digitChar, ih]
    rfl

/-- A list with a character that is no digit is no list of digits. -/
lemma mapM_hexValue?_eq_none {cs : List Char} {c : Char} (hc : hexValue? c = none) (h : c ∈ cs) :
    cs.mapM hexValue? = none := by
  induction cs with
  | nil => exact absurd h List.not_mem_nil
  | cons d cs ih =>
    rw [List.mapM_cons]
    rcases List.mem_cons.mp h with rfl | h
    · rw [hc]
      rfl
    · rw [ih h]
      cases hexValue? d <;> rfl

variable (u : Uuid)

lemma length_simple : u.simple.length = 32 := by
  rw [simple, List.length_map, u.length_digits]

lemma hyphen_notMem_simple : '-' ∉ u.simple := by
  intro h
  obtain ⟨d, -, hd⟩ := List.mem_map.mp h
  have hvalue := hexValue?_digitChar d
  rw [hd, show hexValue? '-' = none by decide] at hvalue
  exact absurd hvalue (by simp)

/-- The digits without hyphens are read as the identifier. -/
lemma ofDigits?_simple : ofDigits? u.simple = some u := by
  rw [ofDigits?, simple, mapM_hexValue?_digits]
  exact dif_pos u.length_digits

/-! ## Groups -/

section

variable {α : Type}

/-- Pieces that use up a list make up the list. -/
lemma flatten_cut {sizes : List ℕ} {xs : List α} (h : xs.length = sizes.foldr (· + ·) 0) :
    (cut sizes xs).flatten = xs := by
  induction sizes generalizing xs with
  | nil => rw [cut, List.flatten_nil, List.length_eq_zero_iff.mp h]
  | cons n sizes ih =>
    have hdrop : (xs.drop n).length = sizes.foldr (· + ·) 0 := by
      rw [List.length_drop, h, List.foldr_cons, Nat.add_sub_cancel_left]
    rw [cut, List.flatten_cons, ih hdrop, List.take_append_drop]

/-- Pieces of a list that is long enough have the given sizes. -/
lemma map_length_cut {sizes : List ℕ} {xs : List α} (h : sizes.foldr (· + ·) 0 ≤ xs.length) :
    (cut sizes xs).map List.length = sizes := by
  induction sizes generalizing xs with
  | nil => rfl
  | cons n sizes ih =>
    rw [List.foldr_cons] at h
    have hdrop : sizes.foldr (· + ·) 0 ≤ (xs.drop n).length := by
      rw [List.length_drop]
      omega
    rw [cut, List.map_cons, ih hdrop, List.length_take, Nat.min_eq_left (by omega)]

lemma mem_of_mem_cut {sizes : List ℕ} {xs piece : List α} (h : piece ∈ cut sizes xs) {x : α}
    (hx : x ∈ piece) : x ∈ xs := by
  induction sizes generalizing xs with
  | nil => exact absurd h List.not_mem_nil
  | cons n sizes ih =>
    rw [cut] at h
    rcases List.mem_cons.mp h with rfl | h
    · exact List.mem_of_mem_take hx
    · exact List.mem_of_mem_drop (ih h)

/-- What is in joined pieces is in one of them or between them. -/
lemma mem_of_mem_intercalate {sep : List α} {pieces : List (List α)} {x : α}
    (h : x ∈ sep.intercalate pieces) : x ∈ sep ∨ ∃ piece ∈ pieces, x ∈ piece := by
  induction pieces with
  | nil => exact absurd h List.not_mem_nil
  | cons piece pieces ih =>
    cases pieces with
    | nil => exact .inr ⟨piece, List.mem_cons_self, by simpa [List.intercalate] using h⟩
    | cons next pieces =>
      rw [List.intercalate_cons_cons, List.mem_append, List.mem_append] at h
      rcases h with (h | h) | h
      · exact .inr ⟨piece, List.mem_cons_self, h⟩
      · exact .inl h
      · rcases ih h with h | ⟨other, hother, h⟩
        · exact .inl h
        · exact .inr ⟨other, List.mem_cons_of_mem _ hother, h⟩

end

/-- The written form is the groups with hyphens between them. -/
lemma toList_format : u.format.toList = ['-'].intercalate (cut groups u.simple) := by
  rw [format, String.toList_intercalate, List.map_map]
  have hid : String.toList ∘ String.ofList = id := funext fun cs => String.toList_ofList
  rw [hid, List.map_id]
  rfl

/-- The written form consists of digits and hyphens. -/
lemma digit_of_mem_format {c : Char} (h : c ∈ u.format.toList) :
    c = '-' ∨ ∃ d : Fin 16, c = Nat.digitChar d.val := by
  rw [toList_format] at h
  rcases mem_of_mem_intercalate h with h | ⟨piece, hpiece, h⟩
  · exact .inl (List.mem_singleton.mp h)
  · obtain ⟨d, -, rfl⟩ := List.mem_map.mp (mem_of_mem_cut hpiece h)
    exact .inr ⟨d, rfl⟩

/-- The five groups are read as the identifier. -/
lemma ofGroups?_format : ofGroups? u.format.toList = some u := by
  have hlength : u.simple.length = groups.foldr (· + ·) 0 := u.length_simple
  have hpieces : u.format.toList.splitOn '-' = cut groups u.simple := by
    rw [toList_format]
    apply List.splitOn_intercalate
    · intro piece hpiece hmem
      exact u.hyphen_notMem_simple (mem_of_mem_cut hpiece hmem)
    · exact List.cons_ne_nil _ _
  rw [ofGroups?, hpieces, if_pos (map_length_cut (Nat.le_of_eq hlength.symm)),
    flatten_cut hlength, ofDigits?_simple]

/-- The written form starts with a digit, and there is a hyphen behind it. -/
lemma exists_toList_format :
    ∃ (d : Fin 16) (cs : List Char), u.format.toList = Nat.digitChar d.val :: cs ∧ '-' ∈ cs := by
  cases hdigits : u.digits with
  | nil => exact absurd u.length_digits (by simp [hdigits])
  | cons d ds =>
    refine ⟨d, ['-'].intercalate ((((ds.map fun d => Nat.digitChar d.val).take 7) ::
      (cut [4, 4, 4, 12] (u.simple.drop 8)))), ?_, ?_⟩
    · rw [toList_format, groups, cut, simple, hdigits]
      rfl
    · rw [cut]
      simp [List.intercalate]

/-- **An identifier is read back from its written form.** -/
theorem parse_format : parse u.format = .ok u := by
  obtain ⟨d, cs, hformat, hhyphen⟩ := u.exists_toList_format
  have hdigits : ofDigits? u.format.toList = none := by
    rw [ofDigits?, mapM_hexValue?_eq_none (c := '-') (by decide)]
    rw [hformat]
    exact List.mem_cons_of_mem _ hhyphen
  have hplain : ∀ d : Fin 16, Nat.digitChar d.val ≠ 'u' ∧ Nat.digitChar d.val ≠ '\x7b' := by
    decide
  have hunwrap : unwrap u.format.toList = (u.format.toList, 0) := by
    rw [hformat, unwrap, if_neg (by simp [urn, Ne.symm (hplain d).1])]
    intro rest h
    exact (hplain d).2 (List.cons.inj h).1
  rw [parse, hdigits, hunwrap]
  dsimp only
  rw [ofGroups?_format]

end ContractConversion.Uuid
