import ContractConversion.Proofs.Toml.Values

/-!
# Documents that are read back

A written section is read line by line: its header, then a pair for each of its settings. So the
statements of a document are those of its sections in their order (`Reader.reads_sections`), and
they define one table for each section, since no name and no key comes twice (`parse_render`).
-/

namespace ContractConversion.Toml

/-- A key that needs no quotes. -/
structure Bare (key : String) : Prop where
  nonempty : key ≠ ""
  bare : ∀ c ∈ key.toList, Reader.isBare c = true

instance (key : String) : Decidable (Bare key) :=
  decidable_of_iff (key ≠ "" ∧ key.toList.all Reader.isBare = true)
    ⟨fun ⟨hne, hall⟩ => ⟨hne, List.all_eq_true.mp hall⟩,
      fun h => ⟨h.nonempty, List.all_eq_true.mpr h.bare⟩⟩

lemma Bare.exists_cons {key : String} (h : Bare key) :
    ∃ c cs, key.toList = c :: cs ∧ Reader.isBare c = true := by
  cases hkey : key.toList with
  | nil => exact absurd (String.toList_eq_nil_iff.mp hkey) h.nonempty
  | cons c cs => exact ⟨c, cs, rfl, h.bare c (hkey ▸ List.mem_cons_self)⟩

/-- A section that can be read: its name and its keys need no quotes, no key comes twice, and its
numbers fit. -/
structure Section.Sound (s : Section) : Prop where
  name : Bare s.name
  keys : ∀ p ∈ s.settings, Bare p.1 ∧ p.2.Fits
  nodup : (s.settings.map Prod.fst).Nodup

lemma Section.Sound.of_keys {s : Section} (name : String) (keys : List String)
    (hname : s.name = name) (hkeys : s.settings.map Prod.fst = keys)
    (hbare : (∀ key ∈ name :: keys, Bare key) ∧ keys.Nodup) (hfits : ∀ p ∈ s.settings, p.2.Fits) :
    s.Sound := by
  subst hname hkeys
  obtain ⟨hname, hkeys⟩ := List.forall_mem_cons.mp hbare.1
  exact ⟨hname, fun p hp => ⟨hkeys _ (List.mem_map_of_mem hp), hfits p hp⟩, hbare.2⟩

/-- The statements that a section is read as. -/
def Section.statements (s : Section) : List Statement :=
  .header [s.name] :: s.settings.map fun p => .pair [p.1] p.2.value

/-- The entry that a section gives to its document. -/
def Section.entry (s : Section) : String × Value :=
  (s.name, .table (s.settings.map fun p => (p.1, p.2.value)))

namespace Reader

/-! ## Keys -/

section

variable {name : String} {c : Char} {rest : List Char}

lemma stops_of_isBare (h : isBare c = true) : Stops c := by
  refine ⟨Bool.eq_false_iff.mpr fun hblank => ?_, ?_, ?_, ?_⟩
  · rw [isBlank, Bool.or_eq_true, decide_eq_true_eq, decide_eq_true_eq] at hblank
    rcases hblank with rfl | rfl <;> exact absurd h (by decide)
  all_goals rintro rfl; exact absurd h (by decide)

/-- A bare key ends before the first character that cannot belong to it. -/
lemma simpleKey_bare (h : Bare name) (hc : isBare c = false) :
    simpleKey (name.toList ++ c :: rest) = some (name, c :: rest) := by
  have htake : (name.toList ++ c :: rest).takeWhile isBare = name.toList := by
    rw [List.takeWhile_append_of_pos h.bare, List.takeWhile_cons_of_neg (by simp [hc]),
      List.append_nil]
  have hdrop : (name.toList ++ c :: rest).dropWhile isBare = c :: rest := by
    rw [List.dropWhile_append_of_pos h.bare, List.dropWhile_cons_of_neg (by simp [hc])]
  have hname : String.ofList name.toList = name := String.ofList_toList
  obtain ⟨d, ds, hcons, hd⟩ := h.exists_cons
  rw [hcons] at htake hdrop hname ⊢
  unfold simpleKey
  split
  next heq =>
    obtain ⟨rfl, -⟩ := List.cons.inj heq
    exact absurd hd (by decide)
  next heq =>
    obtain ⟨rfl, -⟩ := List.cons.inj heq
    exact absurd hd (by decide)
  next =>
    rw [htake, hdrop]
    dsimp only
    rw [hname]

/-- A bare key is a path of one part, if no point follows. -/
lemma key_bare (h : Bare name) (hc : isBare c = false)
    (hpoint : ∀ tail, skipBlanks (c :: rest) ≠ '.' :: tail) (fuel : ℕ) :
    key (fuel + 1) (name.toList ++ c :: rest) = some ([name], skipBlanks (c :: rest)) := by
  have hskip : skipBlanks (name.toList ++ c :: rest) = name.toList ++ c :: rest := by
    obtain ⟨d, ds, hcons, hd⟩ := h.exists_cons
    rw [hcons]
    exact skipBlanks_of_stops (stops_of_isBare hd) _
  rw [key, hskip, simpleKey_bare h hc]
  simp only [bind, Option.bind]
  rfl

/-! ## Lines -/

/-- A header is read. -/
lemma statement_header (h : Bare name) (rest : List Char) :
    statement ('[' :: (name.toList ++ ']' :: rest)) = some (.header [name], rest) := by
  have hclose : Stops ']' := ⟨by decide, by decide, by decide, by decide⟩
  have hread := @key_bare name ']' rest h (by decide)
    (fun tail => by rw [skipBlanks_of_stops hclose]; simp) (name.toList ++ ']' :: rest).length
  rw [skipBlanks_of_stops hclose] at hread
  obtain ⟨d, ds, hcons, hd⟩ := h.exists_cons
  unfold statement
  split
  next heq =>
    rw [hcons] at heq
    obtain ⟨-, htail⟩ := List.cons.inj heq
    obtain ⟨rfl, -⟩ := List.cons.inj htail
    exact absurd hd (by decide)
  next heq =>
    obtain ⟨-, rfl⟩ := List.cons.inj heq
    rw [hread]
    rfl
  next hsingle => exact (hsingle _ rfl).elim

/-- A written setting does not start with a blank. -/
lemma exists_write (setting : Setting) :
    ∃ c cs, setting.write = c :: cs ∧ isBlank c = false := by
  cases setting with
  | text s =>
    obtain ⟨q, cs, hwrite, hq⟩ := exists_writeString s
    exact ⟨q, cs, hwrite, (stops_of_quote hq).blank⟩
  | number n =>
    obtain ⟨c, cs, hdigits, -⟩ := Json.Lexer.toDigits_shape n
    have hc : c.isDigit = true :=
      Text.isDigit_of_mem_toDigits (n := n) (hdigits ▸ List.mem_cons_self)
    have hbare : isBare c = true := by simp [isBare, hc]
    exact ⟨c, cs, hdigits, (stops_of_isBare hbare).blank⟩
  | flag b => cases b <;> exact ⟨_, _, rfl, by decide⟩
  | texts items =>
    rw [Setting.write]
    unfold writeStrings
    split <;> exact ⟨_, _, rfl, by decide⟩

/-- The line of a setting is read as its pair. -/
lemma statement_pair (h : Bare name) {setting : Setting} (hfits : setting.Fits)
    (rest : List Char) :
    statement (name.toList ++ ' ' :: '=' :: ' ' :: (setting.write ++ '\n' :: rest)) =
      some (.pair [name] setting.value, '\n' :: rest) := by
  have hkey := @key_bare name ' ' ('=' :: ' ' :: (setting.write ++ '\n' :: rest)) h (by decide)
    (fun tail => by simp [skipBlanks, isBlank])
    (name.toList ++ ' ' :: '=' :: ' ' :: (setting.write ++ '\n' :: rest)).length
  have hskip : skipBlanks (' ' :: (setting.write ++ '\n' :: rest)) =
      setting.write ++ '\n' :: rest := by
    obtain ⟨c, cs, hwrite, hc⟩ := exists_write setting
    rw [skipBlanks, List.dropWhile_cons_of_pos (by decide), hwrite, List.cons_append,
      List.dropWhile_cons_of_neg (by simp [hc])]
  have hequals : skipBlanks (' ' :: '=' :: ' ' :: (setting.write ++ '\n' :: rest)) =
      '=' :: ' ' :: (setting.write ++ '\n' :: rest) := rfl
  have hvalue := @value_write setting hfits rest
    (2 * (setting.write ++ '\n' :: rest).length + 1)
    (by rw [List.length_append]; omega)
  have hfront : ∀ tail, name.toList ++ ' ' :: '=' :: ' ' :: (setting.write ++ '\n' :: rest) ≠
      '[' :: tail := by
    obtain ⟨d, ds, hcons, hd⟩ := h.exists_cons
    rw [hcons]
    intro tail heq
    obtain ⟨rfl, -⟩ := List.cons.inj heq
    exact absurd hd (by decide)
  unfold statement
  split
  next heq => exact absurd heq (hfront _)
  next heq => exact absurd heq (hfront _)
  next =>
    rw [hkey]
    simp only [bind, Option.bind, hequals, hskip, hvalue]
    rfl

end

/-! ## Documents -/

/-- A text is read as statements, with fuel for each of its characters. -/
def Reads (cs : List Char) (ss : List Statement) : Prop :=
  ∀ fuel, cs.length < fuel → statements fuel cs = some ss

section

variable {c : Char} {cs rest : List Char} {s : Statement} {ss : List Statement}

lemma reads_nil : Reads [] [] := by
  intro fuel hfuel
  obtain ⟨fuel, rfl⟩ : ∃ n, fuel = n + 1 := ⟨fuel - 1, by omega⟩
  rfl

lemma Reads.blank (h : Reads rest ss) : Reads ('\n' :: rest) ss := by
  intro fuel hfuel
  rw [List.length_cons] at hfuel
  obtain ⟨fuel, rfl⟩ : ∃ n, fuel = n + 1 := ⟨fuel - 1, by omega⟩
  rw [← h (fuel + 1) (by omega)]
  rfl

/-- A line holds one statement. -/
lemma Reads.line (h : Reads rest ss) (hc : Stops c)
    (hline : statement (c :: (cs ++ '\n' :: rest)) = some (s, '\n' :: rest)) :
    Reads (c :: (cs ++ '\n' :: rest)) (s :: ss) := by
  intro fuel hfuel
  simp only [List.length_cons, List.length_append] at hfuel
  obtain ⟨fuel, rfl⟩ : ∃ n, fuel = n + 1 := ⟨fuel - 1, by omega⟩
  rw [statements, skipSpace_of_stops hc]
  dsimp only
  rw [hline]
  have hend : skipComment (skipBlanks ('\n' :: rest)) = '\n' :: rest := rfl
  simp only [bind, Option.bind, hend, newline?, h fuel (by omega)]
  rfl

end

/-- The lines of settings. -/
lemma reads_settings {settings : List (String × Setting)}
    (hkeys : ∀ p ∈ settings, Bare p.1 ∧ p.2.Fits) {rest : List Char} {ss : List Statement}
    (h : Reads rest ss) :
    Reads ((settings.flatMap fun (key, setting) =>
        key.toList ++ [' ', '=', ' '] ++ setting.write ++ ['\n']) ++ rest)
      ((settings.map fun p => Statement.pair [p.1] p.2.value) ++ ss) := by
  induction settings with
  | nil => exact h
  | cons p settings ih =>
    obtain ⟨⟨hbare, hfits⟩, hrest⟩ := List.forall_mem_cons.mp hkeys
    have hline := statement_pair hbare hfits
      ((settings.flatMap fun (key, setting) =>
        key.toList ++ [' ', '=', ' '] ++ setting.write ++ ['\n']) ++ rest)
    obtain ⟨c, cs, hcons, hc⟩ := hbare.exists_cons
    have hreads := @Reads.line c (cs ++ ' ' :: '=' :: ' ' :: p.2.write) _ _ _ (ih hrest)
      (stops_of_isBare hc) (by simpa [hcons] using hline)
    simpa [hcons] using hreads

/-- **A section is read as its header and its pairs.** -/
lemma reads_section {s : Section} (hs : s.Sound) {rest : List Char} {ss : List Statement}
    (h : Reads rest ss) : Reads (s.write ++ rest) (s.statements ++ ss) := by
  have hsettings := reads_settings hs.keys h
  have hopen : Stops '[' := ⟨by decide, by decide, by decide, by decide⟩
  have hline := @Reads.line '[' (s.name.toList ++ [']']) _ (.header [s.name]) _ hsettings hopen
    (by rw [List.append_assoc]; exact statement_header hs.name _)
  simpa [Section.write, Section.statements] using hline

/-- **Written sections are read one after the other.** -/
lemma reads_sections {sections : List Section} (h : ∀ s ∈ sections, s.Sound) :
    Reads (['\n'].intercalate (sections.map Section.write))
      (sections.flatMap Section.statements) := by
  induction sections with
  | nil => exact reads_nil
  | cons s sections ih =>
    obtain ⟨hs, hrest⟩ := List.forall_mem_cons.mp h
    cases sections with
    | nil => simpa using reads_section hs reads_nil
    | cons t sections =>
      have hreads := reads_section hs (ih hrest).blank
      rw [List.map_cons, List.map_cons, List.intercalate_cons_cons, List.append_assoc]
      exact hreads

end Reader

/-! ## Tables -/

namespace Node

variable {key : String} {n m : Node} {before entries inner : Entries}

/-- A new key goes to the end. -/
lemma put_of_notMem (h : key ∉ entries.map Prod.fst) :
    put key n entries = entries ++ [(key, n)] := by
  induction entries with
  | nil => rfl
  | cons p entries ih =>
    rw [List.map_cons, List.mem_cons, not_or] at h
    rw [put, if_neg fun heq => h.1 heq.symm, ih h.2, List.cons_append]

/-- The last entry is changed in its place. -/
lemma put_concat (h : key ∉ before.map Prod.fst) :
    put key n (before ++ [(key, m)]) = before ++ [(key, n)] := by
  induction before with
  | nil => simp [put]
  | cons p before ih =>
    rw [List.map_cons, List.mem_cons, not_or] at h
    rw [List.cons_append, put, if_neg fun heq => h.1 heq.symm, ih h.2, List.cons_append]

lemma lookup_of_notMem (h : key ∉ entries.map Prod.fst) : entries.lookup key = none := by
  rw [List.lookup_eq_none_iff]
  rintro p hp
  exact bne_iff_ne.mpr fun heq => h (heq ▸ List.mem_map_of_mem hp)

lemma lookup_concat (h : key ∉ before.map Prod.fst) :
    (before ++ [(key, n)]).lookup key = some n := by
  rw [List.lookup_append, lookup_of_notMem h]
  simp

/-- A pair goes to the end of the table of the last header. -/
lemma inside_concat {name : String} {origin : TableOrigin} {v : Value}
    (hname : name ∉ before.map Prod.fst) (hkey : key ∉ inner.map Prod.fst) :
    inside (define v [key]) [name] (before ++ [(name, .table origin inner)]) =
      some (before ++ [(name, .table origin (inner ++ [(key, .value v)]))]) := by
  rw [inside, descend, lookup_concat hname]
  simp only [inside, define, lookup_of_notMem hkey, put_of_notMem hkey, Option.map_some,
    put_concat hname]

end Node

section

open Node

variable {name : String} {before inner : Entries}

/-- The pairs of a section go to its table. -/
lemma buildFrom_pairs (hname : name ∉ before.map Prod.fst) {settings : List (String × Setting)}
    (hnodup : (inner.map Prod.fst ++ settings.map Prod.fst).Nodup) (ss : List Statement) :
    buildFrom [name] (before ++ [(name, .table .header inner)])
        ((settings.map fun p => Statement.pair [p.1] p.2.value) ++ ss) =
      buildFrom [name] (before ++ [(name, .table .header
        (inner ++ settings.map fun p => (p.1, .value p.2.value)))]) ss := by
  induction settings generalizing inner with
  | nil => simp
  | cons p settings ih =>
    have hkey : p.1 ∉ inner.map Prod.fst := fun hmem =>
      (List.nodup_append.mp hnodup).2.2 _ hmem _ List.mem_cons_self rfl
    have hnext := @ih (inner ++ [(p.1, .value p.2.value)]) (by simpa using hnodup)
    rw [List.map_cons, List.cons_append, buildFrom, inside_concat hname hkey]
    simpa using hnext

/-- The node of a section. -/
def Section.node (s : Section) : String × Node :=
  (s.name, .table .header (s.settings.map fun p => (p.1, .value p.2.value)))

/-- **The sections become the tables of the document**, in their order. -/
lemma buildFrom_sections {sections : List Section} (h : ∀ s ∈ sections, s.Sound)
    (hnodup : (before.map Prod.fst ++ sections.map Section.name).Nodup) (path : List String) :
    buildFrom path before (sections.flatMap Section.statements) =
      some (before ++ sections.map Section.node) := by
  induction sections generalizing before path with
  | nil => simp [buildFrom]
  | cons s sections ih =>
    obtain ⟨hs, hrest⟩ := List.forall_mem_cons.mp h
    have hname : s.name ∉ before.map Prod.fst := fun hmem =>
      (List.nodup_append.mp hnodup).2.2 _ hmem _ List.mem_cons_self rfl
    have hopen : openTable [s.name] before = some (before ++ [(s.name, .table .header [])]) := by
      simp only [openTable, lookup_of_notMem hname, put_of_notMem hname]
    have hpairs := @buildFrom_pairs s.name before [] hname s.settings (by simpa using hs.nodup)
      (sections.flatMap Section.statements)
    have hnext := @ih (before ++ [s.node]) hrest (by simpa [Section.node] using hnodup) [s.name]
    rw [List.flatMap_cons, Section.statements, List.cons_append, buildFrom, hopen]
    dsimp only [bind, Option.bind]
    rw [hpairs]
    simpa [Section.node] using hnext

end

lemma toEntries_values (settings : List (String × Setting)) :
    Node.toEntries (settings.map fun p => (p.1, .value p.2.value)) =
      settings.map fun p => (p.1, p.2.value) := by
  induction settings with
  | nil => rfl
  | cons p settings ih => rw [List.map_cons, Node.toEntries, Node.toValue, ih, List.map_cons]

lemma toEntries_sections (sections : List Section) :
    Node.toEntries (sections.map Section.node) = sections.map Section.entry := by
  induction sections with
  | nil => rfl
  | cons s sections ih =>
    rw [List.map_cons, Section.node, Node.toEntries, Node.toValue, toEntries_values, ih,
      List.map_cons, Section.entry]

/-- A document of sections has no mark of the byte order. -/
lemma ne_mark (sections : List Section) (rest : List Char) :
    ['\n'].intercalate (sections.map Section.write) ≠ '\ufeff' :: rest := by
  cases sections with
  | nil => simp [List.intercalate]
  | cons s sections =>
    cases sections with
    | nil => simp [Section.write]
    | cons t sections => simp [Section.write]

/-- **A document of sections is read back**: each section is a table of its settings. -/
theorem parse_render {sections : List Section} (h : ∀ s ∈ sections, s.Sound)
    (hnodup : (sections.map Section.name).Nodup) :
    parse (render sections) = some (sections.map Section.entry) := by
  have hreads := Reader.reads_sections h _ (Nat.lt_succ_self _)
  have hbuild := @buildFrom_sections [] sections h (by simpa using hnodup) []
  rw [parse, render, String.toList_ofList]
  split
  next heq => exact absurd heq (ne_mark sections _)
  next =>
    rw [Nat.succ_eq_add_one] at hreads
    rw [hreads]
    simp only [bind, Option.bind, build, hbuild, List.nil_append, Option.map_some,
      toEntries_sections]

end ContractConversion.Toml
