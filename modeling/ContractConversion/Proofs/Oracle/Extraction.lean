import ContractConversion.Proofs.Json.Pretty
import ContractConversion.Proofs.Json.Spelling
import ContractConversion.Proofs.Oracle.Blocks
import ContractConversion.Proofs.Wire.Models

/-!
# The object of an answer is found

An answer spells an object from its first brace to its last (`Value.Spelled`), in compact or in
pretty form. In a fenced block the object is found whatever stands around the block, and without a
block it is found between text that has no braces of its own on the wrong side
(`extract_surrounded`).

The search for a block does not know where the strings of the object are. So an answer that is the
object and nothing else is read as itself just if no string, or text between strings, makes a block
(`extract_compact_iff`): of a block, the object would be read instead, and this one is too short to
be the whole.
-/

namespace ContractConversion

open Json (Value)

/-! ## Written objects -/

namespace Json.Value

/-- The value is an object, and the text is from brace to brace and is read as the value. -/
structure Spelled (v : Value) (cs : List Char) : Prop where
  object : v.isObject = true
  shape : ∃ inner, cs = '\x7b' :: (inner ++ ['\x7d'])
  parse : Value.parse (cs.map .char) = .ok v

lemma eq_obj_of_isObject {v : Value} (h : v.isObject = true) : ∃ members, v = .obj members := by
  cases v with
  | obj members => exact ⟨members, rfl⟩
  | _ => cases h

variable {v : Value}

/-- A value that fits is read from any text that is cut into its tokens. -/
lemma parse_of_cuts_of_fits {cs : List Char} (hv : v.Fits) (hdepth : v.depth ≤ depthLimit)
    (h : Lexer.Cuts cs v.tokens) : parse (cs.map .char) = .ok v := by
  rw [parse_of_cuts h hdepth, normalize_of_normal v hv.normal]

/-- The compact form of an object spells it. -/
lemma spelled_compact (hobject : v.isObject = true) (hv : v.Fits) (hdepth : v.depth ≤ depthLimit) :
    v.Spelled v.compactChars where
  object := hobject
  shape := by
    obtain ⟨members, rfl⟩ := eq_obj_of_isObject hobject
    exact ⟨compactMembers members, rfl⟩
  parse := parse_of_cuts_of_fits hv hdepth (Lexer.cuts_compact v hv.integral)

/-- The pretty form of an object spells it. -/
lemma spelled_pretty (hobject : v.isObject = true) (hv : v.Fits) (hdepth : v.depth ≤ depthLimit) :
    v.Spelled (v.prettyChars 0) where
  object := hobject
  shape := by
    obtain ⟨members, rfl⟩ := eq_obj_of_isObject hobject
    cases members with
    | nil => exact ⟨[], rfl⟩
    | cons m rest => exact ⟨prettyMembers 1 (m :: rest) ++ newline 0, rfl⟩
  parse := parse_of_cuts_of_fits hv hdepth (Lexer.cuts_pretty v 0 hv.integral)

end Json.Value

namespace Extraction

/-! ## From the first brace to the last -/

lemma dropWhile_to_brace {before : List Char} (h : '\x7b' ∉ before) (rest : List Char) :
    (before ++ '\x7b' :: rest).dropWhile (· ≠ '\x7b') = '\x7b' :: rest := by
  have hall : ∀ c ∈ before, decide (c ≠ '\x7b') = true := by
    intro c hc
    exact decide_eq_true fun heq => h (heq ▸ hc)
  rw [List.dropWhile_append_of_pos hall, List.dropWhile_cons_of_neg (by decide)]

/-- Behind its last closing brace, a text is cut off. -/
lemma upToLastBrace_append {after : List Char} (h : '\x7d' ∉ after) (cs : List Char) :
    upToLastBrace (cs ++ '\x7d' :: after) = cs ++ ['\x7d'] := by
  have hall : ∀ c ∈ after.reverse, decide (c ≠ '\x7d') = true := by
    intro c hc
    exact decide_eq_true fun heq => h (heq ▸ List.mem_reverse.mp hc)
  have hreverse : (cs ++ '\x7d' :: after).reverse = after.reverse ++ '\x7d' :: cs.reverse := by
    simp
  rw [upToLastBrace, hreverse, List.dropWhile_append_of_pos hall,
    List.dropWhile_cons_of_neg (by decide), List.reverse_cons, List.reverse_reverse]

/-- The object is read if the searched text has no opening brace before it and no closing one
behind it. -/
lemma extract_of_searched {text : String} {v : Value} {before cs after : List Char}
    (hcs : v.Spelled cs) (hbefore : '\x7b' ∉ before) (hafter : '\x7d' ∉ after)
    (htext : (firstBlock text.toList).getD text.toList = before ++ (cs ++ after)) :
    extract text = .ok v := by
  obtain ⟨hobject, ⟨inner, rfl⟩, hparse⟩ := hcs
  have hopen : (before ++ ('\x7b' :: (inner ++ ['\x7d']) ++ after)).dropWhile (· ≠ '\x7b') =
      '\x7b' :: (inner ++ '\x7d' :: after) := by
    rw [List.cons_append, List.append_assoc]
    exact dropWhile_to_brace hbefore _
  have hclose : upToLastBrace ('\x7b' :: (inner ++ '\x7d' :: after)) =
      '\x7b' :: (inner ++ ['\x7d']) := upToLastBrace_append hafter ('\x7b' :: inner)
  rw [extract, htext]
  dsimp only
  rw [hopen]
  dsimp only
  rw [hclose]
  dsimp only
  rw [hparse]
  dsimp only
  rw [if_pos hobject]

/-! ## Objects between other text -/

/-- The block of a spelling on lines of its own. -/
def linedBlock (label inner : List Char) (hlabel : label = [] ∨ label = ['j', 's', 'o', 'n']) :
    Block where
  label := label
  lead := ['\n']
  inner := inner
  trail := ['\n']
  label_eq := hlabel
  lead_blank := List.forall_mem_singleton.mpr rfl
  trail_blank := List.forall_mem_singleton.mpr rfl

/-- An object in a block is read, whatever stands behind the block. -/
lemma extract_of_block {text : String} {v : Value} {cs label before : List Char}
    (after : List Char) (hcs : v.Spelled cs) (hplain : ¬ fence <:+: cs)
    (hlabel : label = [] ∨ label = ['j', 's', 'o', 'n']) (hbefore : ¬ fence <:+: before)
    (hend : before.getLast? ≠ some '`')
    (htext : text.toList =
      before ++ (fence ++ (label ++ ('\n' :: (cs ++ ('\n' :: (fence ++ after))))))) :
    extract text = .ok v := by
  obtain ⟨inner, hinner⟩ := hcs.shape
  have hblock : text.toList = before ++ ((linedBlock label inner hlabel).text ++ after) := by
    rw [htext, hinner]
    simp [linedBlock, Block.text, Block.object]
  have hfree : ¬ fence <:+: inner := by
    intro h
    refine hplain (h.trans ⟨['\x7b'], ['\x7d'], ?_⟩)
    rw [hinner, List.singleton_append, List.cons_append]
  have hfound := firstBlock_append_text (linedBlock label inner hlabel) hfree before after
    hbefore hend
  -- the searched text is the object alone
  refine extract_of_searched hcs List.not_mem_nil List.not_mem_nil ?_
  rw [hblock, hfound, Option.getD_some, List.nil_append, List.append_nil, hinner]
  rfl

/-- An object in a text without fences is read. -/
lemma extract_of_plain {text : String} {v : Value} {cs before after : List Char}
    (hcs : v.Spelled cs) (hbefore : '\x7b' ∉ before) (hafter : '\x7d' ∉ after)
    (htext : text.toList = before ++ (cs ++ after))
    (hplain : ¬ HasBlock text.toList) : extract text = .ok v := by
  refine extract_of_searched hcs hbefore hafter ?_
  rw [firstBlock_eq_none_iff.mpr hplain, Option.getD_none, htext]

/-- **Prose around an object is ignored.** Let the compact or the pretty form of an object have no
fence in it. In a block, labelled or not, it is read behind any text that has no fence and does not
end in a backtick, whatever stands behind the block; and without any fence it is read behind text
without an opening brace and in front of text without a closing one. -/
theorem extract_surrounded {v : Value} {s : String} (hobject : v.isObject = true) (hv : v.Fits)
    (hdepth : v.depth ≤ Json.depthLimit) (hs : s = v.compact ∨ s = v.pretty)
    (hplain : ¬ fence <:+: s.toList) :
    (∀ p q : String, ¬ fence <:+: p.toList → p.toList.getLast? ≠ some '`' →
      extract (p ++ "```json\n" ++ s ++ "\n```" ++ q) = .ok v ∧
      extract (p ++ "```\n" ++ s ++ "\n```" ++ q) = .ok v) ∧
    (∀ p q : String, '\x7b' ∉ p.toList → '\x7d' ∉ q.toList →
      ¬ fence <:+: (p ++ s ++ q).toList → extract (p ++ s ++ q) = .ok v) := by
  have hspelled : v.Spelled s.toList := by
    rcases hs with rfl | rfl
    · rw [Value.compact, String.toList_ofList]
      exact Value.spelled_compact hobject hv hdepth
    · rw [Value.pretty, String.toList_ofList]
      exact Value.spelled_pretty hobject hv hdepth
  constructor
  · intro p q hp hend
    constructor
    · refine extract_of_block q.toList hspelled hplain (.inr rfl) hp hend ?_
      simp [fence]
    · refine extract_of_block q.toList hspelled hplain (.inl rfl) hp hend ?_
      simp [fence]
  · intro p q hp hq hfree
    refine extract_of_plain hspelled hp hq ?_ fun h => hfree h.has_fence
    rw [String.toList_append, String.toList_append, List.append_assoc]

/-- Braces in the strings of the object do not matter, and where there is a block, neither do braces
or further blocks in the prose. -/
theorem extract_surrounded_by_braces :
    extract ("In \x7bbraces\x7d:" ++ "```json\n" ++
        (Value.obj [("code", .str "\x7d f() \x7b")]).pretty ++ "\n```" ++
        "or ```\x7b\x7d```") = .ok (.obj [("code", .str "\x7d f() \x7b")]) ∧
      extract ("Here \x7d:" ++ (Value.obj [("code", .str "\x7d f() \x7b")]).pretty ++ "\x7b done") =
        .ok (.obj [("code", .str "\x7d f() \x7b")]) := by
  have hfits : (Value.obj [("code", .str "\x7d f() \x7b")]).Fits :=
    ⟨⟨List.pairwise_singleton _ _, trivial, trivial⟩, trivial, trivial⟩
  have hfree : '`' ∉ ("Here \x7d:" ++ (Value.obj [("code", .str "\x7d f() \x7b")]).pretty ++
      "\x7b done").toList := by
    rw [String.toList_append, String.toList_append, Value.pretty, String.toList_ofList]
    decide
  have hplain : '`' ∉ (Value.obj [("code", .str "\x7d f() \x7b")]).pretty.toList := fun h =>
    hfree (by simp [h])
  obtain ⟨hblock, hbare⟩ := extract_surrounded rfl hfits (by decide) (.inr rfl)
    (fence_free hplain)
  exact ⟨(hblock "In \x7bbraces\x7d:" "or ```\x7b\x7d```" (fence_free (by decide)) (by decide)).1,
    hbare "Here \x7d:" "\x7b done" (by decide) (by decide) (fence_free hfree)⟩

/-! ## Bare objects -/

lemma upToLastBrace_front (cs : List Char) : upToLastBrace cs <+: cs := by
  rw [upToLastBrace, ← List.reverse_suffix, List.reverse_reverse]
  exact List.dropWhile_suffix _

/-- What is extracted is what some part of the searched text is read as. -/
lemma exists_of_extract {text : String} {v : Value} (h : extract text = .ok v) :
    ∃ cs, cs <:+: (firstBlock text.toList).getD text.toList ∧
      Value.parse (cs.map .char) = .ok v := by
  unfold extract at h
  dsimp only at h
  generalize hfront : ((firstBlock text.toList).getD text.toList).dropWhile (· ≠ '\x7b') = front
    at h
  have hopen : front <:+ (firstBlock text.toList).getD text.toList := by
    rw [← hfront]
    exact List.dropWhile_suffix _
  have hclose := (upToLastBrace_front front).isInfix.trans hopen.isInfix
  split at h
  · cases h
  · split at h
    · cases h
    · split at h
      · cases h
      · next w hparse =>
        split at h
        · obtain rfl := Except.ok.inj h
          exact ⟨_, hclose, hparse⟩
        · cases h

/-- The object of a block lacks the six backticks of its fences. -/
lemma Block.marks_object (b : Block) :
    Json.marks (b.object.map .char) + 6 ≤ Json.marks (b.text.map .char) := by
  have hfence : Json.marks (fence.map .char) = 3 := rfl
  rw [Block.text]
  simp only [List.map_append, Json.marks_append, hfence]
  omega

/-- **A bare object is read as itself just if no fenced block stands in it.** -/
theorem extract_compact_iff {v : Value} (hobject : v.isObject = true) (hv : v.Fits)
    (hdepth : v.depth ≤ Json.depthLimit) :
    extract v.compact = .ok v ↔ ¬ HasBlock v.compact.toList := by
  have hspelled := Value.spelled_compact hobject hv hdepth
  have htext : v.compact.toList = v.compactChars := String.toList_ofList
  constructor
  · intro h hblock
    obtain ⟨found, hfound⟩ := Option.isSome_iff_exists.mp (isSome_firstBlock hblock)
    obtain ⟨b, hb, rfl⟩ := exists_of_firstBlock hfound
    obtain ⟨cs, hcs, hparse⟩ := exists_of_extract h
    rw [hfound, Option.getD_some] at hcs
    rw [htext] at hb
    -- the object of the block has too few marks for the whole value
    have hneeded := Value.marks_le_of_parse hparse
    have hpart : Json.marks (cs.map .char) ≤ Json.marks (b.object.map .char) :=
      (hcs.map Text.Symbol.char).sublist.countP_le
    have hblock := b.marks_object
    have hwhole : Json.marks (b.text.map .char) ≤ Json.marks (v.compactChars.map .char) :=
      (hb.map Text.Symbol.char).sublist.countP_le
    rw [Value.marks_compactChars v hv.integral] at hwhole
    omega
  · intro hplain
    refine extract_of_plain hspelled List.not_mem_nil List.not_mem_nil ?_ hplain
    rw [htext, List.nil_append, List.append_nil]

/-- Generated code with a fence and braces, but without a block. -/
theorem extract_compact_of_fence :
    extract (Value.obj [("code", .str "``` f() \x7b\x7d")]).compact =
      .ok (.obj [("code", .str "``` f() \x7b\x7d")]) := by
  have hfits : (Value.obj [("code", .str "``` f() \x7b\x7d")]).Fits :=
    ⟨⟨List.pairwise_singleton _ _, trivial, trivial⟩, trivial, trivial⟩
  refine (extract_compact_iff rfl hfits (by decide)).mpr (firstBlock_eq_none_iff.mp ?_)
  rw [Value.compact, String.toList_ofList]
  decide

/-- An object with generated code that holds a block. -/
def fencedCode : Value :=
  .obj [("code", .str "```\x7b\x7d```")]

/-- The block in the code is read in the place of the object. -/
theorem extract_fencedCode :
    fencedCode.isObject = true ∧ fencedCode.Fits ∧ fencedCode.depth ≤ Json.depthLimit ∧
      extract fencedCode.compact = .ok (.obj []) ∧ extract fencedCode.compact ≠ .ok fencedCode := by
  have hread : extract fencedCode.compact = .ok (.obj []) := by
    have hempty : (Value.obj []).Spelled ['\x7b', '\x7d'] :=
      Value.spelled_compact rfl ⟨⟨List.Pairwise.nil, trivial⟩, trivial⟩ (by decide)
    refine extract_of_searched hempty List.not_mem_nil List.not_mem_nil ?_
    rw [Value.compact, String.toList_ofList]
    decide
  refine ⟨rfl, ⟨⟨List.pairwise_singleton _ _, trivial, trivial⟩, trivial, trivial⟩, by decide,
    hread, fun h => ?_⟩
  rw [hread] at h
  cases h

end Extraction

end ContractConversion
