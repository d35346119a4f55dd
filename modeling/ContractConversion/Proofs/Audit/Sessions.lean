import ContractConversion.Proofs.Audit.Trail
import ContractConversion.Proofs.Files.Listing
import Mathlib.Data.List.Forall2
import Mathlib.Data.List.Perm.Basic

/-!
# Sessions that are listed

A trail can be opened under one name, the written form of its session (`Trail.fileName`), but the
list takes every form in which an identifier can be read. So it has one entry for each name in the
folder that is read as an identifier, newest first. It shows what can be opened, each session once,
just if all these names are written forms and files (`Trail.exists_sessions`).
-/

namespace ContractConversion

/-! ## What identifiers are read from -/

namespace Uuid

lemma isSome_of_ofDigits? {cs : List Char} {u : Uuid} (h : ofDigits? cs = some u) {c : Char}
    (hc : c ∈ cs) : (Text.hexValue? c).isSome := by
  by_contra hnone
  rw [ofDigits?, mapM_hexValue?_eq_none (by simpa using hnone) hc] at h
  cases h

lemma spells_of_ofGroups? {cs : List Char} {u : Uuid} (h : ofGroups? cs = some u) {c : Char}
    (hc : c ∈ cs) : c = '-' ∨ (Text.hexValue? c).isSome := by
  rw [ofGroups?] at h
  split at h
  next =>
    rw [← @List.intercalate_splitOn _ cs _ _ '-'] at hc
    rcases mem_of_mem_intercalate hc with hc | ⟨piece, hpiece, hc⟩
    · exact .inl (List.mem_singleton.mp hc)
    · exact .inr (isSome_of_ofDigits? h (List.mem_flatten.mpr ⟨piece, hpiece, hc⟩))
  next => cases h

/-- A character stands around the digits or between them. -/
lemma mem_unwrap {cs : List Char} {c : Char} (hc : c ∈ cs) :
    c ∈ urn ++ ['\x7b', '\x7d'] ∨ c ∈ (unwrap cs).1 := by
  unfold unwrap
  split
  next hurn =>
    obtain ⟨rest, rfl⟩ := List.isPrefixOf_iff_prefix.mp hurn
    rw [List.drop_left]
    rcases List.mem_append.mp hc with hc | hc
    · exact .inl (List.mem_append_left _ hc)
    · exact .inr hc
  next =>
    split
    next rest =>
      split
      next hlast =>
        obtain ⟨inner, rfl⟩ := List.getLast?_eq_some_iff.mp hlast
        rw [List.dropLast_concat]
        simp only [List.mem_cons, List.mem_append, List.not_mem_nil, or_false] at hc
        rcases hc with rfl | hc | rfl
        · exact .inl (by decide)
        · exact .inr hc
        · exact .inl (by decide)
      next => exact .inr hc
    next => exact .inr hc

/-- **No identifier is read from a text with a slash or a null.** -/
theorem notMem_of_parse? {s : String} {u : Uuid} (h : parse? s = some u) :
    '/' ∉ s.toList ∧ '\x00' ∉ s.toList := by
  have hspells : ∀ c ∈ s.toList,
      c ∈ urn ++ ['\x7b', '\x7d'] ∨ c = '-' ∨ (Text.hexValue? c).isSome := by
    intro c hc
    rw [parse?, parse] at h
    split at h
    next hdigits => exact .inr (.inr (isSome_of_ofDigits? hdigits hc))
    next =>
      split at h
      next hgroups => exact (mem_unwrap hc).imp_right (spells_of_ofGroups? hgroups)
      next => cases h
  exact ⟨fun hmem => absurd (hspells _ hmem) (by decide),
    fun hmem => absurd (hspells _ hmem) (by decide)⟩

end Uuid

/-! ## The names of trails -/

/-- A name is its stem, a dot and its extension. -/
lemma Path.toList_of_splitExtension {name stem ext : String}
    (h : splitExtension name = (stem, some ext)) :
    name.toList = stem.toList ++ '.' :: ext.toList := by
  rw [splitExtension] at h
  split at h
  next => cases h
  next hstem =>
    obtain ⟨rfl, hext⟩ := Prod.mk.inj h
    obtain rfl := Option.some.inj hext
    rw [String.toList_ofList, String.toList_ofList]
    have hsplit := List.takeWhile_append_dropWhile (p := (· ≠ '.')) (l := name.toList.reverse)
    have hdot := List.head?_dropWhile_not (· ≠ '.') name.toList.reverse
    generalize name.toList.reverse.takeWhile (· ≠ '.') = front at *
    generalize name.toList.reverse.dropWhile (· ≠ '.') = back at *
    rw [← hsplit] at hstem ⊢
    rw [List.drop_length_add_append] at hstem ⊢
    cases back with
    | nil => exact absurd rfl hstem
    | cons c rest =>
      obtain rfl : c = '.' := by simpa using hdot
      rw [← List.reverse_reverse name.toList, ← hsplit]
      simp

/-- What stands before the last dot is the stem, unless it is nothing. -/
lemma Path.splitExtension_append {stem ext : String} (hstem : stem ≠ "") (hext : '.' ∉ ext.toList) :
    splitExtension (stem ++ "." ++ ext) = (stem, some ext) := by
  have hreverse : (stem ++ "." ++ ext).toList.reverse =
      ext.toList.reverse ++ '.' :: stem.toList.reverse := by
    simp
  have hplain : ∀ c ∈ ext.toList.reverse, decide (c ≠ '.') = true := by
    rintro c hc
    refine decide_eq_true fun heq => hext ?_
    rw [← heq]
    exact List.mem_reverse.mp hc
  have htake : (ext.toList.reverse ++ '.' :: stem.toList.reverse).takeWhile (· ≠ '.') =
      ext.toList.reverse := by
    rw [List.takeWhile_append_of_pos hplain]
    simp
  rw [splitExtension, hreverse, htake, List.drop_length_add_append]
  simp [hstem]

namespace Trail

/-- The session of the written form. -/
lemma sessionOf?_fileName (id : Uuid) : sessionOf? (fileName id) = some id := by
  have hformat : id.format ≠ "" := by
    intro heq
    obtain ⟨d, cs, hcs, -⟩ := id.exists_toList_format
    rw [heq] at hcs
    cases hcs
  rw [sessionOf?, fileName, Path.splitExtension_append hformat (by decide)]
  dsimp only
  rw [if_pos rfl, Uuid.parse?, id.parse_format]
  rfl

/-- A name that is read as a session is a plain one. -/
lemma plain_of_sessionOf? {name : String} {id : Uuid} (h : sessionOf? name = some id) :
    Path.Plain name := by
  rw [sessionOf?] at h
  split at h
  next stem e hsplit =>
    split at h
    next he =>
      subst he
      have hname := Path.toList_of_splitExtension hsplit
      obtain ⟨hslash, hnull⟩ := Uuid.notMem_of_parse? h
      have hlast : '.' :: extension.toList = ".json".toList ++ ['l'] := by decide
      refine ⟨?_, ?_, 'l', ?_, by decide⟩
      · rw [hname, List.mem_append]
        exact not_or.mpr ⟨hslash, by decide⟩
      · rw [hname, List.mem_append]
        exact not_or.mpr ⟨hnull, by decide⟩
      · rw [hname, hlast, ← List.append_assoc, List.getLast?_concat]
    next => cases h
  next => cases h

/-! ## Lists of sessions -/

/-- The entry of a folder gives a session and its time to the list. -/
def Gives (entry : String × ℕ) (trail : ℕ × Uuid) : Prop :=
  sessionOf? entry.1 = some trail.2 ∧ entry.2 = trail.1

lemma forall₂_gives (entries : List (String × ℕ)) :
    List.Forall₂ (fun trail entry => Gives entry trail)
      (entries.filterMap fun (name, time) => (sessionOf? name).map (time, ·))
      (entries.filter fun entry => (sessionOf? entry.1).isSome) := by
  induction entries with
  | nil => exact .nil
  | cons entry entries ih =>
    cases hsession : sessionOf? entry.1 with
    | none => simpa [hsession] using ih
    | some id =>
      rw [List.filterMap_cons_some (b := (entry.2, id)) (by simp [hsession]),
        List.filter_cons_of_pos (by simp [hsession])]
      exact .cons ⟨hsession, rfl⟩ ih

/-- The sessions and the times of the entries that give them. -/
lemma map_of_forall₂ {trails : List (ℕ × Uuid)} {entries : List (String × ℕ)}
    (h : List.Forall₂ (fun trail entry => Gives entry trail) trails entries) :
    entries.map (sessionOf? ·.1) = (trails.map (·.2)).map some ∧
      entries.map (·.2) = trails.map (·.1) := by
  induction h with
  | nil => exact ⟨rfl, rfl⟩
  | cons hgives _ ih =>
    obtain ⟨hid, htime⟩ := hgives
    simp [hid, htime, ih.1, ih.2]

section

variable {fs : Files} {folder : String}

/-- The list is made of the entries of the folder that are read as sessions, newest first. -/
lemma exists_sorted {entries : List (String × ℕ)} (hfind : fs.find folder = .ok .folder)
    (hlist : fs.list folder = .ok entries) :
    ∃ (trails : List (String × ℕ)) (ids : List Uuid), sessions fs folder = .ok ids ∧
      trails.map (sessionOf? ·.1) = ids.map some ∧
      trails.Perm (entries.filter fun entry => (sessionOf? entry.1).isSome) ∧
      trails.Pairwise fun a b => b.2 ≤ a.2 := by
  have hcontains : fs.contains folder = true := by rw [Files.contains, hfind]
  generalize hpairs : entries.filterMap (fun (name, time) => (sessionOf? name).map (time, ·)) =
    pairs
  have hgives := forall₂_gives entries
  rw [hpairs] at hgives
  obtain ⟨trails, htrails, hperm⟩ :=
    List.perm_comp_forall₂ (List.mergeSort_perm pairs fun a b => b.1 ≤ a.1) hgives
  obtain ⟨hids, htimes⟩ := map_of_forall₂ htrails
  have hsorted := @List.pairwise_mergeSort _ (fun a b : ℕ × Uuid => b.1 ≤ a.1)
    (by simp only [decide_eq_true_eq]; omega) (by simp; omega) pairs
  refine ⟨trails, _, ?_, hids, hperm, ?_⟩
  · rw [sessions, if_pos hcontains, hlist]
    simp only [bind, Except.bind, pure, Except.pure, hpairs]
  · rw [← List.pairwise_map (f := Prod.snd) (R := fun a b => b ≤ a), htimes, List.pairwise_map]
    simpa using hsorted

/-- Of two names in a folder, the file of the first was changed last. -/
def NewerFirst (fs : Files) (folder : String) (a b : String) : Prop :=
  ∀ fa fb, fs.find (Path.join folder a) = .ok (.file fa) →
    fs.find (Path.join folder b) = .ok (.file fb) → fb.modified ≤ fa.modified

/-- The names in the folder that are read as sessions, each once and newest first, are read as
these sessions. -/
structure Lists (fs : Files) (folder : String) (names : List String) (ids : List Uuid) : Prop where
  ids : names.map sessionOf? = ids.map some
  nodup : names.Nodup
  mem : ∀ name, name ∈ names ↔
    fs.contains (Path.join folder name) = true ∧ (sessionOf? name).isSome
  newest : names.Pairwise (NewerFirst fs folder)

/-- **The list is that of the names in the folder that are read as sessions.** -/
lemma exists_lists (htidy : fs.Tidy) (hfind : fs.find folder = .ok .folder) :
    ∃ names ids, sessions fs folder = .ok ids ∧ Lists fs folder names ids := by
  obtain ⟨entries, hlist, hnodup, hmem, htime⟩ := Files.exists_list hfind
  obtain ⟨trails, ids, hsessions, hids, hperm, hsorted⟩ := exists_sorted hfind hlist
  have hentry : ∀ trail ∈ trails, trail ∈ entries ∧ (sessionOf? trail.1).isSome := fun trail h =>
    List.mem_filter.mp (hperm.mem_iff.mp h)
  have hplain : ∀ name, (sessionOf? name).isSome → Path.Plain name := fun name h =>
    plain_of_sessionOf? (Option.eq_some_of_isSome h)
  refine ⟨trails.map Prod.fst, ids, hsessions, ?_, ?_, fun name => ?_, ?_⟩
  · rw [List.map_map]
    exact hids
  · exact (hperm.map Prod.fst).nodup_iff.mpr (hnodup.sublist (List.filter_sublist.map _))
  · constructor
    · intro h
      obtain ⟨trail, htrail, rfl⟩ := List.mem_map.mp h
      obtain ⟨hin, hsome⟩ := hentry trail htrail
      exact ⟨(hmem _ (hplain _ hsome)).mp (List.mem_map_of_mem hin), hsome⟩
    · rintro ⟨hcontains, hsome⟩
      obtain ⟨trail, hin, rfl⟩ := List.mem_map.mp ((hmem _ (hplain _ hsome)).mpr hcontains)
      exact List.mem_map_of_mem (hperm.mem_iff.mpr (List.mem_filter.mpr ⟨hin, hsome⟩))
  · refine List.pairwise_map.mpr (hsorted.imp_of_mem fun {a b} ha hb hle fa fb hfa hfb => ?_)
    rw [← htime htidy _ _ _ (hplain _ (hentry a ha).2) (hentry a ha).1 hfa,
      ← htime htidy _ _ _ (hplain _ (hentry b hb).2) (hentry b hb).1 hfb]
    exact hle

/-! ## Written forms only -/

/-- Names that are all written forms are those of their sessions. -/
lemma eq_map_fileName {names : List String} {ids : List Uuid}
    (h : names.map sessionOf? = ids.map some)
    (hwritten : ∀ name ∈ names, ∃ id, name = fileName id) : names = ids.map fileName := by
  induction names generalizing ids with
  | nil =>
    obtain rfl : ids = [] := by simpa using h.symm
    rfl
  | cons name names ih =>
    obtain ⟨⟨id, rfl⟩, hrest⟩ := List.forall_mem_cons.mp hwritten
    rw [List.map_cons, sessionOf?_fileName] at h
    cases ids with
    | nil => cases h
    | cons other ids =>
      obtain ⟨hid, htail⟩ := List.cons.inj h
      obtain rfl := Option.some.inj hid
      rw [List.map_cons, ← ih htail hrest]

section

variable {names : List String} {ids : List Uuid} (h : Lists fs folder names ids)

include h

/-- What can be opened is listed. -/
lemma Lists.mem_of_contains {id : Uuid} (hid : fs.contains (pathOf folder id) = true) :
    fileName id ∈ names ∧ id ∈ ids := by
  have hname : fileName id ∈ names :=
    (h.mem _).mpr ⟨hid, by rw [sessionOf?_fileName]; rfl⟩
  have hsession := List.mem_map_of_mem (f := sessionOf?) hname
  rw [h.ids, sessionOf?_fileName] at hsession
  exact ⟨hname, by simpa using hsession⟩

/-- **The list shows what can be opened, each session once and newest first**, just if the names
that are read as sessions are written forms and files. -/
lemma Lists.iff_written :
    (ids.Nodup ∧ (∀ id, id ∈ ids ↔ ∃ file, fs.find (pathOf folder id) = .ok (.file file)) ∧
      ids.Pairwise fun a b => NewerFirst fs folder (fileName a) (fileName b)) ↔
    ∀ name ∈ names, ∃ id file,
      name = fileName id ∧ fs.find (pathOf folder id) = .ok (.file file) := by
  have hcontains : ∀ {id file}, fs.find (pathOf folder id) = .ok (.file file) →
      fs.contains (pathOf folder id) = true := fun hfile => by rw [Files.contains, hfile]
  constructor
  · rintro ⟨hnodup, hopen, -⟩ name hname
    obtain ⟨id, hid⟩ := Option.isSome_iff_exists.mp ((h.mem name).mp hname).2
    have hmem : id ∈ ids := by
      have hsession := List.mem_map_of_mem (f := sessionOf?) hname
      rw [h.ids, hid] at hsession
      simpa using hsession
    obtain ⟨file, hfile⟩ := (hopen id).mp hmem
    -- the written form of the session is listed too, and no session is listed twice
    have hinj : (names.map sessionOf?).Nodup := by
      rw [h.ids]
      exact hnodup.map (Option.some_injective _)
    refine ⟨id, file, ?_, hfile⟩
    exact List.inj_on_of_nodup_map hinj hname (h.mem_of_contains (hcontains hfile)).1
      (hid.trans (sessionOf?_fileName id).symm)
  · intro hwritten
    have hnames := eq_map_fileName h.ids fun name hname => by
      obtain ⟨id, -, heq, -⟩ := hwritten name hname
      exact ⟨id, heq⟩
    have hnodup := h.nodup
    have hnewest := h.newest
    rw [hnames] at hnodup hnewest
    refine ⟨hnodup.of_map _, fun id => ⟨fun hid => ?_, ?_⟩, List.pairwise_map.mp hnewest⟩
    · obtain ⟨other, file, hname, hfile⟩ := hwritten (fileName id)
        (hnames ▸ List.mem_map_of_mem hid)
      exact ⟨file, fileName_injective hname ▸ hfile⟩
    · rintro ⟨file, hfile⟩
      exact (h.mem_of_contains (hcontains hfile)).2

end

/-- **What the list of sessions shows**: the names in the folder that are read as sessions, each
once and newest first. All that can be opened is among them; the list is that of what can be opened,
with each session once and newest first, just if all these names are written forms and files. -/
theorem exists_sessions (htidy : fs.Tidy) (hfind : fs.find folder = .ok .folder) :
    ∃ names ids, sessions fs folder = .ok ids ∧ Lists fs folder names ids ∧
      (∀ id, fs.contains (pathOf folder id) = true → id ∈ ids) ∧
      ((ids.Nodup ∧ (∀ id, id ∈ ids ↔ ∃ file, fs.find (pathOf folder id) = .ok (.file file)) ∧
          ids.Pairwise fun a b => NewerFirst fs folder (fileName a) (fileName b)) ↔
        ∀ name ∈ names, ∃ id file, name = fileName id ∧
          fs.find (pathOf folder id) = .ok (.file file)) := by
  obtain ⟨names, ids, hsessions, hlists⟩ := exists_lists htidy hfind
  exact ⟨names, ids, hsessions, hlists, fun id hid => (hlists.mem_of_contains hid).2,
    hlists.iff_written⟩

end

/-! ## A folder of written forms, and one of others -/

/-- A folder with two trails and a note. -/
def shelf : Files where
  files := [
    { path := ["audit", "aaaaaaaa-aaaa-aaaa-aaaa-aaaaaaaaaaaa.jsonl"], content := [],
      modified := 5 },
    { path := ["audit", "notes.txt"], content := [], modified := 9 },
    { path := ["audit", "bbbbbbbb-bbbb-bbbb-bbbb-bbbbbbbbbbbb.jsonl"], content := [],
      modified := 7 }]

lemma tidy_shelf : shelf.Tidy :=
  ⟨by simp [shelf], by simp [shelf, Files.hasFolder]⟩

lemma contains_shelf :
    shelf.contains (pathOf "audit" ⟨List.replicate 32 0xa, rfl⟩) = true ∧
      shelf.contains (pathOf "audit" ⟨List.replicate 32 0xb, rfl⟩) = true :=
  ⟨by rfl, by rfl⟩

/-- Both trails are listed, and the note is not. -/
theorem exists_sessions_shelf :
    let a : Uuid := ⟨List.replicate 32 0xa, rfl⟩
    let b : Uuid := ⟨List.replicate 32 0xb, rfl⟩
    ∃ names ids, sessions shelf "audit" = .ok ids ∧ a ∈ ids ∧ b ∈ ids ∧
      Lists shelf "audit" names ids ∧ "notes.txt" ∉ names := by
  intro a b
  have hfind : shelf.find "audit" = .ok .folder := rfl
  obtain ⟨names, ids, hsessions, hlists, hopen, -⟩ := exists_sessions tidy_shelf hfind
  refine ⟨names, ids, hsessions, hopen a contains_shelf.1, hopen b contains_shelf.2, hlists,
    fun hnote => ?_⟩
  exact absurd ((hlists.mem _).mp hnote).2 (by decide)

/-- A folder with two copies of a trail, neither under the written form of its session. -/
def copies : Files where
  files := [
    { path := ["audit", "ABCDEF00-0000-4000-8000-00000000000A.jsonl"], content := [],
      modified := 1 },
    { path := ["audit", "abcdef0000004000800000000000000a.jsonl"], content := [], modified := 2 }]

/-- The session of both. -/
def copied : Uuid :=
  ⟨"abcdef0000004000800000000000000a".toList.filterMap Text.hexValue?, by decide⟩

lemma sessionOf?_upper :
    sessionOf? "ABCDEF00-0000-4000-8000-00000000000A.jsonl" = some copied := by
  decide

lemma sessionOf?_simple : sessionOf? "abcdef0000004000800000000000000a.jsonl" = some copied := by
  decide

lemma list_copies : copies.list "audit" =
    .ok [("ABCDEF00-0000-4000-8000-00000000000A.jsonl", 1),
      ("abcdef0000004000800000000000000a.jsonl", 2)] := by
  rfl

/-- The session is listed twice, and it has no trail that can be opened. -/
theorem sessions_copies :
    copies.Tidy ∧ copies.find "audit" = .ok .folder ∧
      sessions copies "audit" = .ok [copied, copied] ∧
      load copies "audit" copied =
        .error (.missing "audit/abcdef00-0000-4000-8000-00000000000a.jsonl" .notFound) := by
  have hfind : copies.find "audit" = .ok .folder := rfl
  refine ⟨⟨by simp [copies], by simp [copies, Files.hasFolder]⟩, hfind, ?_, by rfl⟩
  rw [sessions, Files.contains, hfind, list_copies]
  simp [bind, Except.bind, sessionOf?_upper, sessionOf?_simple, pure, Except.pure, List.mergeSort]

end Trail

end ContractConversion
