import ContractConversion.Proofs.Files
import Mathlib.Data.List.Nodup
import Mathlib.Tactic.ByContra

/-!
# What a folder lists

A folder lists the names of all that is in it, each once. A plain name is listed just if there is
something at its text; where the files are tidy, a file is listed with the time of its last change
(`Files.exists_list`).
-/

namespace ContractConversion.Files

/-! ## Putting entries together -/

/-- Lists one more entry: a name that is there already keeps the later of its times. -/
def tallyEntry (names : List (String × ℕ)) (entry : String × ℕ) : List (String × ℕ) :=
  match names.lookup entry.1 with
  | none => names ++ [entry]
  | some _ => names.map fun (n, t) => if n = entry.1 then (n, max t entry.2) else (n, t)

section

variable {names entries : List (String × ℕ)} {entry x : String × ℕ} {name : String}

lemma lookup_eq_none : names.lookup name = none ↔ name ∉ names.map Prod.fst := by
  rw [List.lookup_eq_none_iff]
  grind

/-- The names are those so far and the one of the entry. -/
lemma map_fst_tallyEntry (names : List (String × ℕ)) (entry : String × ℕ) :
    (tallyEntry names entry).map Prod.fst =
      if entry.1 ∈ names.map Prod.fst then names.map Prod.fst
      else names.map Prod.fst ++ [entry.1] := by
  rw [tallyEntry]
  split
  next hnone => rw [if_neg (lookup_eq_none.mp hnone), List.map_append, List.map_singleton]
  next time hsome =>
    have hold : entry.1 ∈ names.map Prod.fst := by
      by_contra hnew
      rw [lookup_eq_none.mpr hnew] at hsome
      cases hsome
    rw [if_pos hold, List.map_map]
    apply List.map_congr_left
    intro p hp
    by_cases hname : p.1 = entry.1 <;> simp [hname]

/-- What is listed was listed before, or is the entry. -/
lemma mem_of_mem_tallyEntry (h : x ∈ tallyEntry names entry) : x ∈ names ∨ x = entry := by
  rw [tallyEntry] at h
  split at h
  · simpa using h
  · obtain ⟨⟨n, t⟩, hp, rfl⟩ := List.mem_map.mp h
    by_cases hname : n = entry.1
    · subst hname
      rcases Nat.le_total t entry.2 with hle | hle
      · exact .inr (by simp [hle])
      · exact .inl (by simpa [hle] using hp)
    · exact .inl (by simpa [hname] using hp)

lemma nodup_tally (h : (names.map Prod.fst).Nodup) (entries : List (String × ℕ)) :
    ((entries.foldl tallyEntry names).map Prod.fst).Nodup := by
  induction entries generalizing names with
  | nil => exact h
  | cons entry entries ih =>
    apply ih
    rw [map_fst_tallyEntry]
    split
    · exact h
    next hnew => exact List.nodup_append.mpr ⟨h, by simp, by grind⟩

lemma mem_map_tally : name ∈ (entries.foldl tallyEntry names).map Prod.fst ↔
    name ∈ names.map Prod.fst ∨ name ∈ entries.map Prod.fst := by
  induction entries generalizing names with
  | nil => simp
  | cons entry entries ih =>
    rw [List.foldl_cons, ih, map_fst_tallyEntry, List.map_cons, List.mem_cons]
    split
    · grind
    · grind

lemma mem_of_mem_tally (h : x ∈ entries.foldl tallyEntry names) : x ∈ names ∨ x ∈ entries := by
  induction entries generalizing names with
  | nil => exact .inl h
  | cons entry entries ih =>
    rcases ih h with h | h
    · rcases mem_of_mem_tallyEntry h with h | rfl
      · exact .inl h
      · exact .inr List.mem_cons_self
    · exact .inr (List.mem_cons_of_mem _ h)

end

/-! ## The entries of a folder -/

/-- What the files and the folders give to the list of a folder. -/
def entriesAt (fs : Files) (place : Path) : List (String × ℕ) :=
  (fs.files.filterMap fun f =>
    if place.isPrefixOf f.path then ((f.path.drop place.length).head?).map (·, f.modified)
    else none) ++
  fs.folders.filterMap fun p =>
    if place.isPrefixOf p then ((p.drop place.length).head?).map (·, 0) else none

/-- No two files share a path, and no folder has the path of a file. -/
structure Tidy (fs : Files) : Prop where
  paths : (fs.files.map File.path).Nodup
  leaf : ∀ f ∈ fs.files, fs.hasFolder f.path = false

section

variable {fs : Files} {folder name : String} {place path : Path} {time : ℕ}

/-- A path goes on from a place by a name. -/
lemma entry_eq_some {t : ℕ} :
    (if place.isPrefixOf path then ((path.drop place.length).head?).map (·, t) else none) =
      some (name, time) ↔ place ++ [name] <+: path ∧ t = time := by
  constructor
  · intro h
    split at h
    next hbegins =>
      obtain ⟨rest, rfl⟩ := List.isPrefixOf_iff_prefix.mp hbegins
      rw [List.drop_left] at h
      cases rest with
      | nil => cases h
      | cons first rest =>
        obtain ⟨rfl, rfl⟩ := Prod.mk.inj (Option.some.inj h)
        exact ⟨⟨rest, by simp⟩, rfl⟩
    next => cases h
  · rintro ⟨⟨rest, rfl⟩, rfl⟩
    simp

lemma mem_entriesAt : (name, time) ∈ fs.entriesAt place ↔
    (∃ f ∈ fs.files, place ++ [name] <+: f.path ∧ f.modified = time) ∨
      ∃ p ∈ fs.folders, place ++ [name] <+: p ∧ 0 = time := by
  simp only [entriesAt, List.mem_append, List.mem_filterMap, entry_eq_some]

lemma hasFolder_of_below {f : File} (hf : f ∈ fs.files) (h : path <+: f.path)
    (hne : path ≠ f.path) : fs.hasFolder path = true := by
  have hbelow : (fs.files.any fun f => path.isPrefixOf f.path && path ≠ f.path) = true :=
    List.any_eq_true.mpr ⟨f, hf, by simp [h, hne]⟩
  rw [hasFolder, hbelow, Bool.or_true]

lemma hasFolder_of_made {p : Path} (hp : p ∈ fs.folders) (h : path <+: p) :
    fs.hasFolder path = true := by
  have hmade : fs.folders.any (path.isPrefixOf ·) = true :=
    List.any_eq_true.mpr ⟨p, hp, by simp [h]⟩
  rw [hasFolder, hmade, Bool.or_true, Bool.true_or]

/-- There is something at a plain name just if the folder has an entry for it. -/
lemma exists_mem_entriesAt (hname : Path.Plain name) :
    (∃ time, (name, time) ∈ fs.entriesAt place) ↔
      (fs.file? (place ++ [name])).isSome ∨ fs.hasFolder (place ++ [name]) = true := by
  constructor
  · intro h
    by_contra hnothing
    obtain ⟨hfile, hfolder⟩ := not_or.mp hnothing
    obtain ⟨time, hmem⟩ := h
    rcases mem_entriesAt.mp hmem with ⟨f, hf, hbegins, -⟩ | ⟨p, hp, hbegins, -⟩
    · by_cases hpath : f.path = place ++ [name]
      · exact hfile (List.find?_isSome.mpr ⟨f, hf, by simpa using hpath⟩)
      · exact hfolder (hasFolder_of_below hf hbegins (Ne.symm hpath))
    · exact hfolder (hasFolder_of_made hp hbegins)
  · rintro (hfile | hfolder)
    · obtain ⟨f, hf, hpath⟩ := List.find?_isSome.mp hfile
      have hpath : f.path = place ++ [name] := by simpa using hpath
      exact ⟨_, mem_entriesAt.mpr (.inl ⟨f, hf, hpath ▸ List.prefix_rfl, rfl⟩)⟩
    · by_contra hnone
      have hempty := nothing_at hname (fun f hf hbegins => hnone ⟨_, mem_entriesAt.mpr
        (.inl ⟨f, hf, hbegins, rfl⟩)⟩) (fun p hp hbegins => hnone ⟨_, mem_entriesAt.mpr
        (.inr ⟨p, hp, hbegins, rfl⟩)⟩)
      rw [hempty.2] at hfolder
      cases hfolder

/-- Among tidy files, nothing but a file has its name. -/
lemma Tidy.time_eq (h : fs.Tidy) {file : File} (hfile : fs.file? (place ++ [name]) = some file)
    (hmem : (name, time) ∈ fs.entriesAt place) : time = file.modified := by
  have hpath : file.path = place ++ [name] := by simpa using List.find?_some hfile
  have hin : file ∈ fs.files := List.mem_of_find?_eq_some hfile
  have hleaf := h.leaf file hin
  rw [hpath] at hleaf
  rcases mem_entriesAt.mp hmem with ⟨f, hf, hbegins, rfl⟩ | ⟨p, hp, hbegins, -⟩
  · by_cases heq : place ++ [name] = f.path
    · rw [List.inj_on_of_nodup_map h.paths hf hin (heq.symm.trans hpath.symm)]
    · rw [hasFolder_of_below hf hbegins heq] at hleaf
      cases hleaf
  · rw [hasFolder_of_made hp hbegins] at hleaf
    cases hleaf

end

/-! ## Lists of folders -/

/-- **What a folder lists.** Each name stands once, a plain name is there just if there is something
at its text, and among tidy files a file has the time of its last change. -/
theorem exists_list {fs : Files} {folder : String} (h : fs.find folder = .ok .folder) :
    ∃ entries, fs.list folder = .ok entries ∧ (entries.map Prod.fst).Nodup ∧
      (∀ name, Path.Plain name →
        (name ∈ entries.map Prod.fst ↔ fs.contains (Path.join folder name) = true)) ∧
      (fs.Tidy → ∀ name time file, Path.Plain name → (name, time) ∈ entries →
        fs.find (Path.join folder name) = .ok (.file file) → time = file.modified) := by
  have hopens := opens_of_find h
  refine ⟨(fs.entriesAt (Path.ofText folder)).foldl tallyEntry [], ?_,
    nodup_tally (by simp) _, fun name hname => ?_,
    fun htidy name time file hname hmem hfile => ?_⟩
  · rw [list, h]
    rfl
  · have hfind : fs.contains (Path.join folder name) = true ↔
        (fs.file? (Path.ofText folder ++ [name])).isSome ∨
          fs.hasFolder (Path.ofText folder ++ [name]) = true := by
      rw [contains, find_join hopens hname]
      cases fs.file? (Path.ofText folder ++ [name]) with
      | some file => simp
      | none => cases fs.hasFolder (Path.ofText folder ++ [name]) <;> simp
    rw [mem_map_tally, hfind, ← exists_mem_entriesAt hname]
    simp
  · rw [find_join hopens hname] at hfile
    have hentry := (mem_of_mem_tally hmem).resolve_left List.not_mem_nil
    split at hfile
    next found hfound =>
      obtain rfl := Entry.file.inj (Except.ok.inj hfile)
      exact htidy.time_eq hfound hentry
    next => split at hfile <;> cases hfile

end ContractConversion.Files
