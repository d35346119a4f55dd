import ContractConversion.Oracle.Extraction
import Mathlib.Data.List.TakeWhile
import Mathlib.Data.Nat.Notation
import Mathlib.Tactic.Lemma

/-!
# Fenced blocks of an answer

A block (`Block`) is a fence, perhaps the label `json`, an object from brace to brace, and another
fence, with blanks around the object only. The search finds a block if the text has one
(`firstBlock_eq_none_iff`), and what it finds is the object of a block (`exists_of_firstBlock`). A
block whose object has no fence in it is found with its whole object, behind any text that has no
fence and does not end in the middle of one (`firstBlock_append_text`).
-/

namespace ContractConversion.Extraction

/-- A fenced block that holds nothing but braces from end to end, in its parts. -/
structure Block where
  label : List Char
  lead : List Char
  inner : List Char
  trail : List Char
  label_eq : label = [] ∨ label = ['j', 's', 'o', 'n']
  lead_blank : ∀ c ∈ lead, Text.isBlank c = true
  trail_blank : ∀ c ∈ trail, Text.isBlank c = true

/-- What a block holds, from brace to brace. -/
def Block.object (b : Block) : List Char :=
  '\x7b' :: (b.inner ++ ['\x7d'])

/-- The characters of a block, fences included. -/
def Block.text (b : Block) : List Char :=
  fence ++ (b.label ++ (b.lead ++ (b.object ++ (b.trail ++ fence))))

/-- A block stands somewhere in the text. -/
def HasBlock (text : List Char) : Prop :=
  ∃ b : Block, b.text <:+: text

/-- A text with a block has a fence. -/
lemma HasBlock.has_fence {text : List Char} (h : HasBlock text) : fence <:+: text := by
  obtain ⟨b, hb⟩ := h
  exact (List.prefix_append fence _).isInfix.trans hb

/-! ## Fences -/

variable {before trail cs found rest after : List Char}

lemma isPrefixOf_fence : fence.isPrefixOf cs = true ↔ fence <+: cs :=
  List.isPrefixOf_iff_prefix

/-- Without a backtick there is no fence. -/
lemma fence_free (h : '`' ∉ cs) : ¬ fence <:+: cs :=
  fun hfence => h (hfence.subset List.mem_cons_self)

/-- Blanks in front of a fence are dropped, and the fence is not. -/
lemma dropWhile_blank_fence (h : ∀ c ∈ trail, Text.isBlank c = true) :
    (trail ++ (fence ++ after)).dropWhile Text.isBlank = fence ++ after := by
  rw [List.dropWhile_append_of_pos h]
  rfl

/-- A fence in front of whose end stands no other character is complete there. -/
lemma fence_prefix_of_append {c : Char} (hc : c ∉ fence) (h : fence <+: cs ++ c :: rest) :
    fence <+: cs := by
  have hfront : cs ++ [c] <+: cs ++ c :: rest := ⟨rest, by simp⟩
  rcases List.prefix_or_prefix_of_prefix h hfront with hle | hge
  · rcases List.prefix_concat_iff.mp hle with heq | hle
    · exact absurd (heq ▸ List.mem_concat_self) hc
    · exact hle
  · exact absurd (hge.mem List.mem_concat_self) hc

/-- A brace that only blanks separate from a fence has the fence in front of the next brace. -/
lemma infix_of_closed
    (h : fence <+: (cs ++ '\x7d' :: rest).dropWhile Text.isBlank) : fence <:+: cs := by
  rw [List.dropWhile_append] at h
  split at h
  · -- nothing but blanks up to the brace, which is no fence
    have hbrace : ('\x7d' :: rest).dropWhile Text.isBlank = [] ++ '\x7d' :: rest := rfl
    rw [hbrace] at h
    have hnil := fence_prefix_of_append (by decide) h
    exact absurd hnil (by decide)
  · have hfront := fence_prefix_of_append (by decide) h
    exact hfront.isInfix.trans (List.dropWhile_suffix _).isInfix

/-! ## The end of a block -/

/-- What is found up to a fence ends with a brace that only blanks separate from the fence. -/
lemma exists_of_upToFence (h : upToFence before cs = some found) :
    ∃ inner trail, (∀ c ∈ trail, Text.isBlank c = true) ∧
      inner ++ '\x7d' :: (trail ++ fence) <+: cs ∧
      found = before.reverse ++ (inner ++ ['\x7d']) := by
  induction cs generalizing before with
  | nil => cases h
  | cons c cs ih =>
    rw [upToFence] at h
    split at h
    · next hclosed =>
      obtain ⟨rfl, hfence⟩ := hclosed
      obtain ⟨after, hafter⟩ := isPrefixOf_fence.mp hfence
      refine ⟨[], cs.takeWhile Text.isBlank, fun _ => List.mem_takeWhile_imp, ⟨after, ?_⟩, ?_⟩
      · rw [List.nil_append, List.cons_append, List.append_assoc, hafter,
          List.takeWhile_append_dropWhile]
      · rw [← Option.some.inj h, List.reverse_cons, List.nil_append]
    · -- this character belongs to what is found
      obtain ⟨inner, trail, htrail, ⟨after, hafter⟩, hfound⟩ := ih h
      refine ⟨c :: inner, trail, htrail, ⟨after, ?_⟩, ?_⟩
      · rw [List.cons_append, List.cons_append, hafter]
      · rw [hfound, List.reverse_cons, List.append_assoc]
        rfl

/-- Something is found if a brace stands before blanks and a fence. -/
lemma isSome_upToFence (inner : List Char) (htrail : ∀ c ∈ trail, Text.isBlank c = true) :
    (upToFence before (inner ++ '\x7d' :: (trail ++ (fence ++ after)))).isSome = true := by
  induction inner generalizing before with
  | nil =>
    rw [List.nil_append, upToFence, dropWhile_blank_fence htrail,
      if_pos ⟨rfl, isPrefixOf_fence.mpr (List.prefix_append _ _)⟩]
    rfl
  | cons c inner ih =>
    rw [List.cons_append, upToFence]
    split
    · rfl
    · exact ih

/-- The first brace before blanks and a fence is the one behind everything that has no fence. -/
lemma upToFence_eq (inner : List Char) (hinner : ¬ fence <:+: inner)
    (htrail : ∀ c ∈ trail, Text.isBlank c = true) :
    upToFence before (inner ++ '\x7d' :: (trail ++ (fence ++ after))) =
      some (before.reverse ++ (inner ++ ['\x7d'])) := by
  induction inner generalizing before with
  | nil =>
    rw [List.nil_append, upToFence, dropWhile_blank_fence htrail,
      if_pos ⟨rfl, isPrefixOf_fence.mpr (List.prefix_append _ _)⟩, List.reverse_cons]
    rfl
  | cons c inner ih =>
    -- even if the character is a brace, the next fence is not before the end of the object
    have htail : ¬ fence <:+: inner := fun h => hinner (List.infix_cons h)
    have hopen : ¬ fence <+:
        (inner ++ '\x7d' :: (trail ++ (fence ++ after))).dropWhile Text.isBlank :=
      fun h => htail (infix_of_closed h)
    rw [List.cons_append, upToFence, if_neg fun h => hopen (isPrefixOf_fence.mp h.2), ih htail,
      List.reverse_cons, List.append_assoc]
    rfl

/-! ## Blocks at the front of a text -/

/-- The label is dropped, and nothing is where none stands in front of the brace. -/
lemma dropLabel_append {label lead : List Char} (hlabel : label = [] ∨ label = ['j', 's', 'o', 'n'])
    (hlead : ∀ c ∈ lead, Text.isBlank c = true) (rest : List Char) :
    dropLabel (label ++ (lead ++ '\x7b' :: rest)) = lead ++ '\x7b' :: rest := by
  rcases hlabel with rfl | rfl
  · rw [List.nil_append, dropLabel, if_neg]
    -- a blank or the brace stands in the place of the first letter
    cases lead with
    | nil => simp
    | cons c lead =>
      have hc : 'j' ≠ c := by
        rintro rfl
        exact absurd (hlead 'j' List.mem_cons_self) (by decide)
      simp [hc]
  · rfl

/-- From the front of a block on, the search goes for the end of its object. -/
lemma blockAt_text_append (b : Block) (after : List Char) :
    blockAt (b.text ++ after) =
      upToFence ['\x7b'] (b.inner ++ '\x7d' :: (b.trail ++ (fence ++ after))) := by
  have htext : b.text ++ after = fence ++ (b.label ++ (b.lead ++
      '\x7b' :: (b.inner ++ '\x7d' :: (b.trail ++ (fence ++ after))))) := by
    simp [Block.text, Block.object]
  have hdrop : ∀ cs, (fence ++ cs).drop 3 = cs := fun _ => rfl
  rw [htext, blockAt, if_pos (isPrefixOf_fence.mpr (List.prefix_append _ _)), hdrop,
    dropLabel_append b.label_eq b.lead_blank, List.dropWhile_append_of_pos b.lead_blank]
  rfl

/-- What is found at the front of a text is the object of a block there. -/
lemma exists_of_blockAt (h : blockAt cs = some found) :
    ∃ b : Block, b.text <+: cs ∧ b.object = found := by
  unfold blockAt at h
  split at h
  case isFalse => cases h
  case isTrue hfence =>
  obtain ⟨rest, rfl⟩ := isPrefixOf_fence.mp hfence
  have hdrop : (fence ++ rest).drop 3 = rest := rfl
  rw [hdrop] at h
  -- the label is there or not
  obtain ⟨label, hlabel, hrest⟩ : ∃ label, (label = [] ∨ label = ['j', 's', 'o', 'n']) ∧
      rest = label ++ dropLabel rest := by
    unfold dropLabel
    split
    · next hjson =>
      obtain ⟨tail, rfl⟩ := List.isPrefixOf_iff_prefix.mp hjson
      exact ⟨_, .inr rfl, rfl⟩
    · exact ⟨[], .inl rfl, rfl⟩
  split at h
  case h_2 => cases h
  case h_1 body hbody =>
  obtain ⟨inner, trail, htrail, ⟨after, hafter⟩, hfound⟩ := exists_of_upToFence h
  refine ⟨⟨label, (dropLabel rest).takeWhile Text.isBlank, inner, trail, hlabel,
    fun _ => List.mem_takeWhile_imp, htrail⟩, ⟨after, ?_⟩, hfound.symm⟩
  have hsplit := List.takeWhile_append_dropWhile (p := Text.isBlank) (l := dropLabel rest)
  rw [hbody, ← hafter] at hsplit
  calc _ = fence ++ (label ++ ((dropLabel rest).takeWhile Text.isBlank ++
        '\x7b' :: (inner ++ '\x7d' :: (trail ++ fence) ++ after))) := by
          simp [Block.text, Block.object]
    _ = fence ++ rest := by rw [hsplit, ← hrest]

/-! ## Blocks in a text -/

/-- **What is found in a text is the object of a block of it.** -/
theorem exists_of_firstBlock (h : firstBlock cs = some found) :
    ∃ b : Block, b.text <:+: cs ∧ b.object = found := by
  induction cs with
  | nil => cases h
  | cons c cs ih =>
    rw [firstBlock] at h
    rcases Option.or_eq_some_iff.mp h with hfront | ⟨-, hrest⟩
    · obtain ⟨b, hb, hobject⟩ := exists_of_blockAt hfront
      exact ⟨b, hb.isInfix, hobject⟩
    · obtain ⟨b, hb, hobject⟩ := ih hrest
      exact ⟨b, List.infix_cons hb, hobject⟩

/-- The search finds a block if there is one. -/
lemma isSome_firstBlock (h : HasBlock cs) : (firstBlock cs).isSome = true := by
  obtain ⟨b, before, after, rfl⟩ := h
  have hfront : (blockAt (b.text ++ after)).isSome = true := by
    rw [blockAt_text_append]
    exact isSome_upToFence b.inner b.trail_blank
  have htext : b.text ++ after = '`' :: (b.text ++ after).tail := rfl
  rw [List.append_assoc]
  -- the search finds an earlier block or comes to this one
  induction before with
  | nil =>
    rw [List.nil_append]
    rw [htext, firstBlock, ← htext, Option.isSome_or, hfront, Bool.true_or]
  | cons c before ih =>
    rw [List.cons_append, firstBlock, Option.isSome_or, ih, Bool.or_true]

/-- **The search finds nothing just if the text has no block.** -/
theorem firstBlock_eq_none_iff : firstBlock cs = none ↔ ¬ HasBlock cs := by
  constructor
  · intro hnone hblock
    have hsome := isSome_firstBlock hblock
    rw [hnone] at hsome
    cases hsome
  · intro hblock
    refine Option.eq_none_iff_forall_ne_some.mpr fun found hfound => hblock ?_
    obtain ⟨b, hb, -⟩ := exists_of_firstBlock hfound
    exact ⟨b, hb⟩

/-- No fence starts in a text that has none and does not end in the middle of one. -/
lemma not_fence_prefix_append {before : List Char} (hne : before ≠ [])
    (hplain : ¬ fence <:+: before) (hend : before.getLast? ≠ some '`') (rest : List Char) :
    ¬ fence <+: before ++ rest := by
  intro h
  rcases List.prefix_or_prefix_of_prefix h (List.prefix_append before rest) with hle | hge
  · exact hplain hle.isInfix
  · -- the text would be the beginning of a fence, and all of a fence is backticks
    have hlast : before.getLast hne = '`' :=
      List.eq_of_mem_replicate (n := 3) (hge.mem (List.getLast_mem hne))
    exact hend (by rw [List.getLast?_eq_some_getLast hne, hlast])

/-- A text that has no fence and does not end in the middle of one is passed over. -/
lemma firstBlock_append (before rest : List Char) (hplain : ¬ fence <:+: before)
    (hend : before.getLast? ≠ some '`') : firstBlock (before ++ rest) = firstBlock rest := by
  induction before with
  | nil => rfl
  | cons c before ih =>
    have hnone : blockAt (c :: before ++ rest) = none := by
      have hfence := not_fence_prefix_append (List.cons_ne_nil c before) hplain hend rest
      rw [blockAt, if_neg fun h => hfence (isPrefixOf_fence.mp h)]
    have htail : before.getLast? ≠ some '`' := by
      intro h
      exact hend (by rw [List.getLast?_cons, h]; rfl)
    rw [List.cons_append] at hnone ⊢
    rw [firstBlock, hnone, Option.none_or]
    exact ih (fun h => hplain (List.infix_cons h)) htail

/-- **A block is found with its whole object** if this has no fence in it, and if the text before
the block has none either and does not end in the middle of one. -/
theorem firstBlock_append_text (b : Block) (hinner : ¬ fence <:+: b.inner)
    (before after : List Char) (hplain : ¬ fence <:+: before) (hend : before.getLast? ≠ some '`') :
    firstBlock (before ++ (b.text ++ after)) = some b.object := by
  have hfront : blockAt (b.text ++ after) = some b.object := by
    rw [blockAt_text_append, upToFence_eq b.inner hinner b.trail_blank]
    rfl
  have htext : b.text ++ after = '`' :: (b.text ++ after).tail := rfl
  rw [firstBlock_append before _ hplain hend, htext, firstBlock, ← htext, hfront, Option.some_or]

end ContractConversion.Extraction
