import ContractConversion.Proofs.Files

/-!
# Files that are written

A file that is written is found under the text it was written to, whether a file was there or not
and however the text spells its path (`Files.exists_find_of_write`): names lead on as before, since
the new file is at no path that one goes on from.
-/

namespace ContractConversion

lemma Path.pieces_ne_nil (current cs : List Char) : pieces current cs ≠ [] := by
  induction cs generalizing current with
  | nil => simp [pieces]
  | cons c cs ih =>
    by_cases hc : c = '/'
    · rw [hc, pieces_slash]
      exact List.cons_ne_nil _ _
    · rw [pieces_cons hc]
      exact ih _

namespace Files

variable {fs fs' : Files} {text name : String} {path place : Path} {content : List UInt8}

/-! ## What is found -/

/-- A file is found just if the names of the text lead to its path. -/
lemma find_file_iff {file : File} : fs.find text = .ok (.file file) ↔
    '\x00' ∉ text.toList ∧ text ≠ "" ∧
      ∃ path, fs.walk (Path.start text) (Path.pieces [] text.toList) = .ok path ∧
        fs.file? path = some file := by
  rw [find]
  by_cases hnull : '\x00' ∈ text.toList
  · simp [hnull]
  by_cases hempty : text = ""
  · simp [hempty]
  rw [if_neg (by simpa using hnull), if_neg hempty]
  simp only [hnull, hempty, not_false_eq_true, true_and, ne_eq]
  cases fs.walk (Path.start text) (Path.pieces [] text.toList) with
  | error fault => simp [bind, Except.bind]
  | ok path =>
    simp only [bind, Except.bind, Except.ok.injEq, exists_eq_left']
    cases hfile : fs.file? path with
    | some found => simp [pure, Except.pure]
    | none =>
      dsimp only
      split <;> simp [pure, Except.pure, throw, throwThe, MonadExceptOf.throw]

/-- Where nothing is found, names may still lead to a path of no file and no folder. -/
lemma not_found {names : List String} (hnull : '\x00' ∉ text.toList) (hempty : text ≠ "")
    (hpieces : Path.pieces [] text.toList = names ++ [name])
    (hwalk : fs.walk (Path.start text) names = .ok place) (hfolder : fs.hasFolder place = true)
    (h : fs.find text = .error .notFound) :
    fs.walk (Path.start text) (Path.pieces [] text.toList) = .ok (place.step name) ∧
      fs.file? (place.step name) = none ∧ fs.hasFolder (place.step name) = false := by
  rw [find, if_neg (by simpa using hnull), if_neg hempty] at h
  have hlast : fs.walk (Path.start text) (Path.pieces [] text.toList) = fs.walk place [name] := by
    rw [hpieces, walk_append, hwalk]
    rfl
  rw [hlast] at h ⊢
  cases hfile : fs.file? place with
  | some file =>
    -- then one could not go on, which is another fault
    rw [walk, hfile] at h
    cases h
  | none =>
    rw [walk_singleton hfile hfolder] at h ⊢
    refine ⟨rfl, ?_⟩
    simp only [bind, Except.bind] at h
    split at h
    · cases h
    next hnone =>
      split at h
      · cases h
      next hnothing => exact ⟨hnone, Bool.eq_false_iff.mpr hnothing⟩

/-- Both ways to write put a file at the path to which the names lead. -/
lemma put_of_write (h : fs.write text content = .ok fs') :
    '\x00' ∉ text.toList ∧ text ≠ "" ∧
      fs.walk (Path.start text) (Path.pieces [] text.toList) = .ok (Path.ofText text) ∧
      (fs.file? (Path.ofText text) = none → fs.hasFolder (Path.ofText text) = false) ∧
      fs' = fs.putFile ⟨Path.ofText text, content, fs.nextTime⟩ := by
  rw [write] at h
  split at h
  · cases h
  next file hfind =>
    obtain ⟨hnull, hempty, path, hwalk, hfile⟩ := find_file_iff.mp hfind
    obtain rfl : Path.ofText text = path := eq_foldl_of_walk hwalk
    refine ⟨hnull, hempty, hwalk, fun hnone => ?_, (Except.ok.inj h).symm⟩
    rw [hfile] at hnone
    cases hnone
  next hfind =>
    obtain ⟨place, hplace, h⟩ := bind_eq_ok.mp h
    have hnull : '\x00' ∉ text.toList := by
      intro hmem
      rw [find, if_pos (by simpa using hmem)] at hfind
      cases hfind
    simp only [bind, Except.bind, throw, throwThe, MonadExceptOf.throw] at h
    split at h
    · cases h
    next hfree =>
    split at h
    · cases h
    split at h
    · cases h
    next hfolder =>
    obtain ⟨hempty, -⟩ := not_or.mp hfree
    have hlast := List.dropLast_concat_getLast (Path.pieces_ne_nil [] text.toList)
    obtain ⟨hwalk, hfile, hnothing⟩ := not_found hnull hempty hlast.symm hplace
      (by simpa using hfolder) hfind
    have hpath : Path.ofText text = _ := eq_foldl_of_walk hwalk
    rw [← hpath] at hwalk hfile hnothing
    exact ⟨hnull, hempty, hwalk, fun _ => hnothing, (Except.ok.inj h).symm⟩
  next => cases h

/-- **A file that is written is found** with its content, whatever was there and however its path is
spelled. -/
theorem exists_find_of_write (h : fs.write text content = .ok fs') :
    ∃ file, fs'.find text = .ok (.file file) ∧ file.content = content := by
  obtain ⟨hnull, hempty, hwalk, hnew, rfl⟩ := put_of_write h
  refine ⟨⟨Path.ofText text, content, fs.nextTime⟩, find_file_iff.mpr ⟨hnull, hempty, _,
    walk_putFile hnew hwalk, ?_⟩, rfl⟩
  rw [file?_putFile, if_pos rfl]

/-- **What is written as text is read as it.** -/
theorem readText_of_write {s : String} (h : fs.write text (Text.Utf8.encode s) = .ok fs') :
    fs'.contains text = true ∧ fs'.readText text = .ok s := by
  obtain ⟨file, hfind, hcontent⟩ := exists_find_of_write h
  constructor
  · rw [contains, hfind]
  · rw [readText, readBytes, hfind]
    simp only [bind, Except.bind, pure, Except.pure, hcontent, Text.Utf8.strict?_encode]

/-- A file that is removed is not there. -/
lemma file?_remove (fs : Files) (text : String) :
    (fs.remove text).file? (Path.ofText text) = none := by
  rw [file?, remove, List.find?_eq_none]
  intro file hfile
  have hother := (List.mem_filter.mp hfile).2
  simpa using hother

/-- Files are left as they were where a new one is put and removed. -/
lemma remove_putFile {file : File} (hpath : file.path = Path.ofText text)
    (hnew : fs.file? (Path.ofText text) = none) : (fs.putFile file).remove text = fs := by
  have hothers : ∀ f ∈ fs.files, f.path ≠ Path.ofText text := by
    simpa [file?] using hnew
  have hput : ∀ files : List File, (∀ f ∈ files, f.path ≠ Path.ofText text) →
      (put file files).filter (·.path ≠ Path.ofText text) = files := by
    intro files hfiles
    induction files with
    | nil => simp [put, hpath]
    | cons f rest ih =>
      obtain ⟨hf, hrest⟩ := List.forall_mem_cons.mp hfiles
      rw [put, if_neg (fun heq => hf (heq.trans hpath)),
        List.filter_cons_of_pos (by simpa using hf), ih hrest]
  rw [remove, putFile, hput _ hothers]

/-! ## The working folder -/

/-- **A plain name in the working folder can be written**, unless a folder has it. -/
theorem exists_write (hname : Path.Plain name) (hfile : fs.file? [] = none)
    (hfolder : fs.hasFolder [name] = false) (content : List UInt8) :
    ∃ fs', fs.write name content = .ok fs' := by
  have hstart : Path.start name = [] := by
    rw [Path.start, if_neg]
    intro hhead
    exact hname.slash (List.mem_of_head? hhead)
  have hwalk : fs.walk (Path.start name) (Path.pieces [] name.toList) = .ok [name] := by
    rw [hstart, hname.pieces, walk_singleton hfile rfl, hname.step]
    rfl
  have hpath : Path.ofText name = [name] := eq_foldl_of_walk hwalk
  cases hthere : fs.file? [name] with
  | some file =>
    have hfind : fs.find name = .ok (.file file) :=
      find_file_iff.mpr ⟨hname.null, hname.ne_empty, [name], hwalk, hthere⟩
    rw [write, hfind]
    exact ⟨_, rfl⟩
  | none =>
    have hfind : fs.find name = .error .notFound := by
      rw [find, if_neg (by simpa using hname.null), if_neg hname.ne_empty, hwalk]
      simp only [bind, Except.bind, hthere, hfolder]
      rfl
    have hnames : Path.namesFolder name = false := hname.namesFolder (List.nil_append _).symm
    rw [write, hfind, hpath, hstart, hname.pieces]
    simp [walk, hname.ne_empty, hnames, hasFolder, bind, Except.bind, pure, Except.pure]

end Files

end ContractConversion
