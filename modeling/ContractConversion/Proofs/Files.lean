import ContractConversion.Files
import ContractConversion.Proofs.Except
import ContractConversion.Proofs.Text.Utf8

/-!
# Files of a folder

What is at the text of a name in a folder is what is at the path of the folder and the name
(`Files.find_join`), if the folder can be opened and the name is a plain one. A plain name can be
written and read there: writing behind the end of its file puts what was in it and what is new at
its path (`Files.append_join`) and touches nothing else. Where no folder has the path of the file,
every folder stays open (`Files.Opens.putFile`).
-/

namespace ContractConversion

/-! ## Paths -/

namespace Path

lemma pieces_slash (current rest : List Char) :
    pieces current ('/' :: rest) = String.ofList current.reverse :: pieces [] rest := by
  rw [pieces]

lemma pieces_cons {c : Char} (hc : c ≠ '/') (current rest : List Char) :
    pieces current (c :: rest) = pieces (c :: current) rest := by
  rw [pieces]
  exact hc

/-- The pieces before a slash and behind it. -/
lemma pieces_append (cs ds : List Char) (current : List Char) :
    pieces current (cs ++ '/' :: ds) = pieces current cs ++ pieces [] ds := by
  induction cs generalizing current with
  | nil => exact pieces_slash current ds
  | cons c cs ih =>
    by_cases hc : c = '/'
    · rw [hc, List.cons_append, pieces_slash, pieces_slash, ih]
      rfl
    · rw [List.cons_append, pieces_cons hc, pieces_cons hc, ih]

/-- Without a slash there is one piece. -/
lemma pieces_of_notMem {cs : List Char} (h : '/' ∉ cs) (current : List Char) :
    pieces current cs = [String.ofList (current.reverse ++ cs)] := by
  induction cs generalizing current with
  | nil => rw [pieces, List.append_nil]
  | cons c cs ih =>
    obtain ⟨hc, hcs⟩ := not_or.mp (mt List.mem_cons.mpr h)
    rw [pieces_cons (fun heq => hc heq.symm), ih hcs, List.reverse_cons, List.append_assoc]
    rfl

/-- A name that stands for itself in every folder, and that is not taken for a folder. -/
structure Plain (name : String) : Prop where
  slash : '/' ∉ name.toList
  null : '\x00' ∉ name.toList
  /-- It ends in something else than a dot. -/
  last : ∃ c, name.toList.getLast? = some c ∧ c ≠ '.'

namespace Plain

variable {name : String} (h : Plain name)

include h

lemma ne_empty : name ≠ "" := by
  rintro rfl
  obtain ⟨c, hc, -⟩ := h.last
  cases hc

lemma step (path : Path) : path.step name = path ++ [name] := by
  obtain ⟨c, hc, hdot⟩ := h.last
  have hone : name ≠ "." := by
    rintro rfl
    exact hdot (Option.some.inj hc).symm
  have htwo : name ≠ ".." := by
    rintro rfl
    exact hdot (Option.some.inj hc).symm
  rw [Path.step, if_neg (not_or.mpr ⟨h.ne_empty, hone⟩), if_neg htwo]

lemma pieces : Path.pieces [] name.toList = [name] := by
  rw [pieces_of_notMem h.slash, List.reverse_nil, List.nil_append, String.ofList_toList]

/-- A text that ends in the name does not name a folder. -/
lemma namesFolder {text : String} {before : List Char}
    (htext : text.toList = before ++ name.toList) : namesFolder text = false := by
  obtain ⟨c, hc, hdot⟩ := h.last
  obtain ⟨cs, hcs⟩ := List.getLast?_eq_some_iff.mp hc
  have hslash : c ≠ '/' := by
    rintro rfl
    exact h.slash (hcs ▸ List.mem_append_right _ List.mem_cons_self)
  rw [Path.namesFolder, htext, hcs, ← List.append_assoc, List.reverse_append]
  simp [hslash, hdot]

end Plain

/-- The text of a name in a folder is that of the folder, perhaps with a slash behind it, and the
name. -/
lemma exists_toList_join {folder : String} (h : folder ≠ "") (name : String) :
    (∃ cs, folder.toList = cs ++ ['/'] ∧ (join folder name).toList = cs ++ '/' :: name.toList) ∨
      (join folder name).toList = folder.toList ++ '/' :: name.toList := by
  rw [join, if_neg h]
  split
  next hslash =>
    obtain ⟨cs, hcs⟩ := List.getLast?_eq_some_iff.mp hslash
    exact .inl ⟨cs, hcs, by simp [hcs]⟩
  next => exact .inr (by simp)

/-- A folder starts where the names in it do. -/
lemma start_join {folder : String} (h : folder ≠ "") (name : String) :
    start (join folder name) = start folder := by
  have hfolder : folder.toList ≠ [] := fun hnil => h (String.toList_eq_nil_iff.mp hnil)
  have hhead : (join folder name).toList.head? = folder.toList.head? := by
    rcases exists_toList_join h name with ⟨cs, hcs, hjoin⟩ | hjoin
    · rw [hjoin, hcs]
      cases cs <;> rfl
    · obtain ⟨c, cs, hcs⟩ := List.exists_cons_of_ne_nil hfolder
      rw [hjoin, hcs]
      rfl
  unfold start
  rw [hhead]

end Path

namespace Files

/-! ## Going on by names -/

section

variable {fs : Files} {path place : Path}

lemma walk_append (xs ys : List String) :
    fs.walk path (xs ++ ys) = (fs.walk path xs).bind (fs.walk · ys) := by
  induction xs generalizing path with
  | nil => rfl
  | cons x xs ih =>
    rw [List.cons_append, walk, walk, ih]
    split
    · rfl
    · split
      · rfl
      · rfl

/-- From a folder one goes on by one name. -/
lemma walk_singleton (hfile : fs.file? path = none) (hfolder : fs.hasFolder path = true)
    (name : String) : fs.walk path [name] = .ok (path.step name) := by
  rw [walk, hfile, hfolder]
  rfl

/-- Names lead where the text of them leads. -/
lemma eq_foldl_of_walk {names : List String} (h : fs.walk path names = .ok place) :
    names.foldl Path.step path = place := by
  induction names generalizing path with
  | nil => exact Except.ok.inj h
  | cons name names ih =>
    rw [walk] at h
    split at h
    · cases h
    · split at h
      · exact ih h
      · cases h

/-- A name that stays where it is can be left out at the end. -/
lemma walk_of_walk_stay {names : List String} (h : fs.walk path (names ++ [""]) = .ok place) :
    fs.walk path names = .ok place := by
  rw [walk_append] at h
  obtain ⟨before, hbefore, hlast⟩ := bind_eq_ok.mp h
  have hstay : before = place := eq_foldl_of_walk hlast
  rw [hbefore, hstay]

end

/-! ## Open folders -/

/-- The text stands for the folder at the path. -/
structure Opens (fs : Files) (folder : String) (place : Path) : Prop where
  null : '\x00' ∉ folder.toList
  nonempty : folder ≠ ""
  walk : fs.walk (Path.start folder) (Path.pieces [] folder.toList) = .ok place
  file : fs.file? place = none
  folder : fs.hasFolder place = true

/-- A text at which there is a folder stands for the path of it. -/
lemma opens_of_find {fs : Files} {folder : String} (h : fs.find folder = .ok .folder) :
    fs.Opens folder (Path.ofText folder) := by
  unfold find at h
  split at h
  · cases h
  next hnull =>
  split at h
  · cases h
  next hempty =>
  obtain ⟨place, hwalk, h⟩ := bind_eq_ok.mp h
  obtain rfl : Path.ofText folder = place := eq_foldl_of_walk hwalk
  split at h
  · cases h
  next hfile =>
  split at h
  next hfolder => exact ⟨by simpa using hnull, hempty, hwalk, hfile, hfolder⟩
  next => cases h

section

variable {fs : Files} {folder name : String} {place : Path}

/-- The names on the way to a plain name in an open folder. -/
lemma Opens.exists_pieces_join (h : fs.Opens folder place) (hname : Path.Plain name) :
    ∃ names, Path.pieces [] (Path.join folder name).toList = names ++ [name] ∧
      fs.walk (Path.start (Path.join folder name)) names = .ok place := by
  have hwalk := h.walk
  rw [Path.start_join h.nonempty]
  rcases Path.exists_toList_join h.nonempty name with ⟨cs, hcs, hjoin⟩ | hjoin
  · refine ⟨Path.pieces [] cs, ?_, ?_⟩
    · rw [hjoin, Path.pieces_append, hname.pieces]
    · -- behind the last slash of the folder stands an empty name
      rw [hcs, Path.pieces_append] at hwalk
      exact walk_of_walk_stay hwalk
  · refine ⟨Path.pieces [] folder.toList, ?_, hwalk⟩
    rw [hjoin, Path.pieces_append, hname.pieces]

/-- A plain name in an open folder stands for the path of the folder and the name. -/
lemma Opens.ofText_join (h : fs.Opens folder place) (hname : Path.Plain name) :
    Path.ofText (Path.join folder name) = place ++ [name] := by
  obtain ⟨names, hpieces, hwalk⟩ := h.exists_pieces_join hname
  rw [Path.ofText, hpieces, List.foldl_append, eq_foldl_of_walk hwalk, List.foldl_cons,
    List.foldl_nil, hname.step]

/-- There is a text before the name. -/
lemma Opens.exists_before (h : fs.Opens folder place) (name : String) :
    ∃ before, '\x00' ∉ before ∧ (Path.join folder name).toList = before ++ name.toList := by
  have hnull := h.null
  rcases Path.exists_toList_join h.nonempty name with ⟨cs, hcs, hjoin⟩ | hjoin
  · refine ⟨cs ++ ['/'], hcs ▸ hnull, ?_⟩
    rw [hjoin, List.append_assoc]
    rfl
  · refine ⟨folder.toList ++ ['/'], ?_, ?_⟩
    · simp [hnull]
    · rw [hjoin, List.append_assoc]
      rfl

lemma Opens.join_ne_empty (h : fs.Opens folder place) (hname : Path.Plain name) :
    Path.join folder name ≠ "" := by
  obtain ⟨before, -, hjoin⟩ := h.exists_before name
  intro heq
  have hlist := String.toList_eq_nil_iff.mpr heq
  rw [hjoin, List.append_eq_nil_iff] at hlist
  exact hname.ne_empty (String.toList_eq_nil_iff.mp hlist.2)

/-- **What is at a plain name in an open folder** is the file of that path, or the folder, or
nothing. -/
theorem find_join (h : fs.Opens folder place) (hname : Path.Plain name) :
    fs.find (Path.join folder name) =
      match fs.file? (place ++ [name]) with
      | some file => .ok (.file file)
      | none => if fs.hasFolder (place ++ [name]) then .ok .folder else .error .notFound := by
  obtain ⟨names, hpieces, hwalk⟩ := h.exists_pieces_join hname
  obtain ⟨before, hbefore, hjoin⟩ := h.exists_before name
  have hnull : (Path.join folder name).toList.contains '\x00' = false := by
    simp [hjoin, hbefore, hname.null]
  have hplace : fs.walk (Path.start (Path.join folder name)) (names ++ [name]) =
      .ok (place ++ [name]) := by
    rw [walk_append, hwalk]
    exact (walk_singleton h.file h.folder name).trans (congrArg Except.ok (hname.step place))
  rw [find, hnull, if_neg Bool.false_ne_true, if_neg (h.join_ne_empty hname), hpieces, hplace]
  rfl

/-- The content of the file of a plain name. -/
lemma readBytes_join (h : fs.Opens folder place) (hname : Path.Plain name)
    (hfolder : fs.hasFolder (place ++ [name]) = false) :
    fs.readBytes (Path.join folder name) =
      match fs.file? (place ++ [name]) with
      | some file => .ok file.content
      | none => .error .notFound := by
  rw [readBytes, find_join h hname, hfolder]
  cases fs.file? (place ++ [name]) with
  | none => rfl
  | some file => rfl

/-- The text of the file of a plain name. -/
lemma readText_join (h : fs.Opens folder place) (hname : Path.Plain name)
    (hfolder : fs.hasFolder (place ++ [name]) = false) {file : File} {text : String}
    (hfile : fs.file? (place ++ [name]) = some file)
    (hcontent : file.content = Text.Utf8.encode text) :
    fs.readText (Path.join folder name) = .ok text := by
  rw [readText, readBytes_join h hname hfolder, hfile]
  simp only [bind, Except.bind, hcontent, Text.Utf8.strict?_encode, pure, Except.pure]

/-- The files with one more file, or with a file in the place of the one of its path. -/
def putFile (fs : Files) (file : File) : Files :=
  { fs with files := put file fs.files }

/-- **A plain name in an open folder can be written.** -/
theorem write_join (h : fs.Opens folder place) (hname : Path.Plain name)
    (hfolder : fs.hasFolder (place ++ [name]) = false) (content : List UInt8) :
    fs.write (Path.join folder name) content =
      .ok (fs.putFile ⟨place ++ [name], content, fs.nextTime⟩) := by
  have hfind := find_join h hname
  have hpath := h.ofText_join hname
  rw [hfolder] at hfind
  cases hfile : fs.file? (place ++ [name]) with
  | some file =>
    rw [hfile] at hfind
    rw [write, hfind, hpath]
    rfl
  | none =>
    rw [hfile] at hfind
    -- all that could be in the way of a new file is ruled out
    obtain ⟨names, hpieces, hwalk⟩ := h.exists_pieces_join hname
    obtain ⟨before, -, hjoin⟩ := h.exists_before name
    rw [write, hfind, hpath]
    simp [hpieces, hwalk, h.folder, h.join_ne_empty hname, hname.namesFolder hjoin, bind,
      Except.bind, pure, Except.pure, putFile]

/-- **Writing behind the end of a plain name** puts what was in its file and what is new. -/
theorem append_join (h : fs.Opens folder place) (hname : Path.Plain name)
    (hfolder : fs.hasFolder (place ++ [name]) = false) (content : List UInt8) :
    fs.append (Path.join folder name) content =
      .ok (fs.putFile ⟨place ++ [name],
        ((fs.file? (place ++ [name])).map File.content).getD [] ++ content, fs.nextTime⟩) := by
  rw [append, readBytes_join h hname hfolder]
  cases fs.file? (place ++ [name]) with
  | none => exact write_join h hname hfolder content
  | some file => exact write_join h hname hfolder (file.content ++ content)

end

/-! ## Putting a file -/

section

variable {fs : Files} {file : File} {path place : Path} {folder : String}

lemma file?_putFile (fs : Files) (file : File) (path : Path) :
    (fs.putFile file).file? path = if file.path = path then some file else fs.file? path := by
  have hfind : ∀ files : List File, (put file files).find? (·.path = path) =
      if file.path = path then some file else files.find? (·.path = path) := by
    intro files
    induction files with
    | nil => by_cases hpath : file.path = path <;> simp [put, hpath]
    | cons f files ih =>
      by_cases hf : f.path = file.path
      · by_cases hpath : file.path = path <;> simp [put, hf, hpath]
      · by_cases hpath : f.path = path
        · have hne : file.path ≠ path := fun heq => hf (hpath.trans heq.symm)
          simp [put, hpath, hne, Ne.symm hne]
        · simp [put, hf, hpath, ih]
  exact hfind fs.files

/-- The folders of the files are those on the way to the new one and those that were there. -/
lemma hasFolder_putFile (fs : Files) (file : File) (path : Path) :
    (fs.putFile file).hasFolder path =
      (fs.hasFolder path || (path.isPrefixOf file.path && path ≠ file.path)) := by
  have hany : ∀ files : List File,
      (put file files).any (fun f => path.isPrefixOf f.path && path ≠ f.path) =
        (files.any (fun f => path.isPrefixOf f.path && path ≠ f.path) ||
          (path.isPrefixOf file.path && path ≠ file.path)) := by
    intro files
    induction files with
    | nil => simp [put]
    | cons f files ih =>
      by_cases hf : f.path = file.path
      · rw [put, if_pos hf, List.any_cons, List.any_cons, hf]
        cases (path.isPrefixOf file.path && path ≠ file.path) <;> simp
      · rw [put, if_neg hf, List.any_cons, List.any_cons, ih, Bool.or_assoc]
  rw [hasFolder, hasFolder, putFile, hany, ← Bool.or_assoc]

/-- One goes on as before if the file is put where one was, or where there is no folder. -/
lemma walk_putFile {names : List String}
    (hnew : fs.file? file.path = none → fs.hasFolder file.path = false)
    (h : fs.walk path names = .ok place) : (fs.putFile file).walk path names = .ok place := by
  induction names generalizing path with
  | nil => exact h
  | cons name names ih =>
    rw [walk] at h
    split at h
    · cases h
    next hnone =>
    split at h
    next hfolder =>
      have hne : file.path ≠ path := by
        rintro rfl
        have hnothing := hnew (Option.not_isSome_iff_eq_none.mp hnone)
        exact Bool.false_ne_true (hnothing.symm.trans hfolder)
      rw [walk, file?_putFile, if_neg hne, if_neg hnone, hasFolder_putFile, hfolder, Bool.true_or,
        if_pos rfl]
      exact ih h
    next => cases h

/-- **An open folder stays open** when a file is put where there is no folder. -/
theorem Opens.putFile (h : fs.Opens folder place) (hfile : fs.hasFolder file.path = false) :
    (fs.putFile file).Opens folder place where
  null := h.null
  nonempty := h.nonempty
  walk := walk_putFile (fun _ => hfile) h.walk
  file := by
    have hne : file.path ≠ place := by
      rintro rfl
      exact Bool.false_ne_true (hfile.symm.trans h.folder)
    rw [file?_putFile, if_neg hne, h.file]
  folder := by rw [hasFolder_putFile, h.folder, Bool.true_or]

end

/-! ## Empty folders -/

/-- A name at which and below which there is nothing is neither a file nor a folder. -/
lemma nothing_at {fs : Files} {place : Path} {name : String} (hname : Path.Plain name)
    (hfiles : ∀ f ∈ fs.files, ¬(place ++ [name] <+: f.path))
    (hfolders : ∀ p ∈ fs.folders, ¬(place ++ [name] <+: p)) :
    fs.file? (place ++ [name]) = none ∧ fs.hasFolder (place ++ [name]) = false := by
  constructor
  · apply List.find?_eq_none.mpr
    intro f hf heq
    exact hfiles f hf (of_decide_eq_true heq ▸ List.prefix_rfl)
  · have hroot : place ++ [name] ≠ ["/"] := by
      intro heq
      have hlast := congrArg List.getLast? heq
      rw [List.getLast?_concat] at hlast
      obtain rfl : name = "/" := Option.some.inj hlast
      exact hname.slash List.mem_cons_self
    have hmade : fs.folders.any ((place ++ [name]).isPrefixOf ·) = false := by
      simpa using hfolders
    have hbelow : (fs.files.any fun f =>
        (place ++ [name]).isPrefixOf f.path && place ++ [name] ≠ f.path) = false := by
      apply List.any_eq_false.mpr
      intro f hf
      simp [hfiles f hf]
    rw [hasFolder, hmade, hbelow]
    simp [hroot]

end Files

end ContractConversion
