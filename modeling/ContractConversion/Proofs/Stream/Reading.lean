import ContractConversion.Proofs.Except
import ContractConversion.Stream.Reader
import Mathlib.Data.List.DropRight

/-!
# Reading does not depend on the cut

The reader keeps the bytes of an incomplete line and takes in one chunk after the other. However the
bytes are cut, it hears the events of the frames between line ends, each decoded by itself, up to
the first terminal one (`StreamReader.read_pieces`). When the transport fails, only the frames count
that were complete by then.

What is kept of the bytes so far has no line end, and the next chunk is put behind it; so the frames
of a byte string are those of its beginning, and then those of the kept bytes with what follows
(`LineDecoder.exists_segments`).
-/

namespace ContractConversion

/-! ## Blank ends of a text -/

namespace Text

lemma trimChars_append {cs blanks : List Char} (h : ∀ c ∈ blanks, isBlank c) :
    trimChars (cs ++ blanks) = trimChars cs := by
  rw [trimChars, trimChars, List.dropWhile_append]
  split
  · next hnil => rw [List.isEmpty_iff.mp hnil, List.dropWhile_eq_nil_iff.mpr h]
  · rw [dropBlankEnd, dropBlankEnd, List.reverse_append,
      List.dropWhile_append_of_pos fun c hc => h c (List.mem_reverse.mp hc)]

lemma trimChars_prepend {blanks cs : List Char} (h : ∀ c ∈ blanks, isBlank c) :
    trimChars (blanks ++ cs) = trimChars cs := by
  rw [trimChars, trimChars, List.dropWhile_append_of_pos h]

/-- What is trimmed off is blank. -/
lemma exists_trimChars (cs : List Char) :
    ∃ front back, cs = front ++ trimChars cs ++ back ∧ (∀ c ∈ front, isBlank c) ∧
      ∀ c ∈ back, isBlank c := by
  refine ⟨cs.takeWhile isBlank, (cs.dropWhile isBlank).rtakeWhile isBlank, ?_,
    fun c hc => List.mem_takeWhile_imp hc, fun c hc => List.mem_rtakeWhile_imp hc⟩
  have hback : trimChars cs ++ (cs.dropWhile isBlank).rtakeWhile isBlank = cs.dropWhile isBlank :=
    List.rdropWhile_append_rtakeWhile
  rw [List.append_assoc, hback, List.takeWhile_append_dropWhile]

lemma trimChars_trimChars (cs : List Char) : trimChars (trimChars cs) = trimChars cs := by
  obtain ⟨front, back, hcs, hfront, hback⟩ := exists_trimChars cs
  calc trimChars (trimChars cs)
      = trimChars (front ++ trimChars cs ++ back) := by
        rw [trimChars_append hback, trimChars_prepend hfront]
    _ = trimChars cs := by rw [← hcs]

lemma trimChars_eq_nil_iff {cs : List Char} : trimChars cs = [] ↔ ∀ c ∈ cs, isBlank c := by
  constructor
  · intro h c hc
    obtain ⟨front, back, hcs, hfront, hback⟩ := exists_trimChars cs
    rw [hcs, h, List.append_nil] at hc
    exact (List.mem_append.mp hc).elim (hfront c) (hback c)
  · intro h
    rw [trimChars, List.dropWhile_eq_nil_iff.mpr h]
    rfl

lemma isEmpty_trim (s : String) : (trim s).isEmpty = allBlank s := by
  rw [Bool.eq_iff_iff, String.isEmpty_iff, allBlank, List.all_eq_true, ← trimChars_eq_nil_iff, trim,
    String.ofList_eq_empty_iff]

end Text

/-! ## Frames of a byte string -/

namespace LineDecoder

/-- The frames of a byte string are some whole ones and a last one without a line end. Bytes that
follow leave the whole ones as they are and go on with the last one. -/
lemma exists_segments (bytes : List UInt8) :
    ∃ whole last, segments bytes = whole ++ [last] ∧
      ∀ more, segments (bytes ++ more) = whole ++ segments (last ++ more) := by
  induction bytes with
  | nil => exact ⟨[], [], rfl, fun _ => rfl⟩
  | cons b bytes ih =>
    obtain ⟨whole, last, heq, hall⟩ := ih
    have hcons : ∀ xs : List UInt8, segments (b :: xs) =
        if b == newline then [] :: segments xs else (segments xs).modifyHead (List.cons b) :=
      fun xs => by
        rw [segments, List.splitOn, List.splitOnP_cons_eq_if_modifyHead]
        rfl
    by_cases hb : b == newline
    · refine ⟨[] :: whole, last, ?_, fun more => ?_⟩
      · rw [hcons, if_pos hb, heq]
        rfl
      · rw [List.cons_append, hcons, if_pos hb, hall]
        rfl
    · cases whole with
      | nil =>
        refine ⟨[], b :: last, ?_, fun more => ?_⟩
        · rw [hcons, if_neg hb, heq]
          rfl
        · rw [List.cons_append, hcons, if_neg hb, hall, List.cons_append, hcons, if_neg hb]
          rfl
      | cons frame whole =>
        refine ⟨(b :: frame) :: whole, last, ?_, fun more => ?_⟩
        · rw [hcons, if_neg hb, heq]
          rfl
        · rw [List.cons_append, hcons, if_neg hb, hall]
          rfl

/-- The frames of a byte string that have a line end. -/
def complete (bytes : List UInt8) : List (List UInt8) :=
  (segments bytes).dropLast

/-- What a decoder keeps of a byte string: its last frame. -/
def kept (bytes : List UInt8) : List UInt8 :=
  (segments bytes).getLast?.getD []

lemma segments_eq (bytes : List UInt8) : segments bytes = complete bytes ++ [kept bytes] := by
  obtain ⟨whole, last, heq, -⟩ := exists_segments bytes
  simp [complete, kept, heq]

lemma segments_append (bytes more : List UInt8) :
    segments (bytes ++ more) = complete bytes ++ segments (kept bytes ++ more) := by
  obtain ⟨whole, last, heq, hall⟩ := exists_segments bytes
  simp [complete, kept, heq, hall]

lemma complete_append (bytes more : List UInt8) :
    complete (bytes ++ more) = complete bytes ++ complete (kept bytes ++ more) := by
  have hne : segments (kept bytes ++ more) ≠ [] := List.splitOn_ne_nil _ _
  rw [complete, segments_append, List.dropLast_append_of_ne_nil hne]
  rfl

lemma kept_append (bytes more : List UInt8) :
    kept (bytes ++ more) = kept (kept bytes ++ more) := by
  rw [kept, segments_append, segments_eq (kept bytes ++ more)]
  simp

/-- Carriage returns only are cut off the end of a frame's text. -/
lemma exists_lineText (frame : List UInt8) :
    ∃ n, (Text.Utf8.lossy frame).toList = lineText frame ++ List.replicate n '\r' := by
  rw [Text.Utf8.lossy, String.toList_ofList]
  generalize hcs : (Text.Utf8.symbols frame).map Text.Symbol.replaced = cs
  have hreturns : ∀ c ∈ cs.rtakeWhile (· = '\r'), c = '\r' := fun c hc => by
    simpa using List.mem_rtakeWhile_imp hc
  refine ⟨(cs.rtakeWhile (· = '\r')).length, ?_⟩
  rw [← List.eq_replicate_of_mem hreturns, lineText, hcs]
  exact List.rdropWhile_append_rtakeWhile.symm

/-- A frame is as blank as its text without the carriage returns. -/
lemma all_isBlank_lineText (frame : List UInt8) :
    (lineText frame).all Text.isBlank = Text.allBlank (Text.Utf8.lossy frame) := by
  obtain ⟨n, htext⟩ := exists_lineText frame
  have hreturn : Text.isBlank '\r' = true := by decide
  rw [Text.allBlank, htext, List.all_append, List.all_replicate, hreturn]
  simp

/-- What is kept has no line end. -/
lemma segments_kept (bytes : List UInt8) : segments (kept bytes) = [kept bytes] := by
  have h := segments_append bytes []
  rw [List.append_nil, List.append_nil, segments_eq] at h
  exact (List.append_cancel_left h).symm

end LineDecoder

namespace StreamReader

/-! ## What there is to hear -/

/-- The event of a frame: what its text is decoded as, if the text is not blank and can be
decoded. -/
def event? (frame : List UInt8) : Option Event :=
  let text := Text.Utf8.lossy frame
  if Text.allBlank text then none else (Event.ofLine text).toOption

/-- The events up to the first terminal one. -/
def heard (events : List Event) : List Event :=
  events.takeWhile (fun e => !e.isTerminal) ++ (events.find? (·.isTerminal)).toList

/-- What a reader hears of events, and how its stream ends: with the terminal event if there is one,
and otherwise as it is said. -/
def outcome (events : List Event) (otherwise : StreamEnd) : List Event × StreamEnd :=
  (heard events, if events.any (·.isTerminal) then .terminal else otherwise)

/-! ## One chunk after the other -/

/-- The reader finds in a frame, cut off its line, what there is in it. -/
lemma event?_eq_bind (frame : List UInt8) :
    event? frame = (LineDecoder.line? frame).bind fun line => (Event.ofLine line).toOption := by
  obtain ⟨n, htext⟩ := LineDecoder.exists_lineText frame
  have hreturns : ∀ c ∈ List.replicate n '\r', Text.isBlank c := fun c hc => by
    rw [List.eq_of_mem_replicate hc]
    decide
  have htrim : Text.trim (Text.Utf8.lossy frame) =
      Text.trim (String.ofList (LineDecoder.lineText frame)) := by
    rw [Text.trim, Text.trim, htext, String.toList_ofList, Text.trimChars_append hreturns]
  rw [event?, LineDecoder.line?, LineDecoder.all_isBlank_lineText]
  split
  · rfl
  · rw [Event.ofLine, htrim]
    rfl

/-- Without its blank ends, a frame has the same event in it. -/
lemma event?_eq_bind_finish (d : LineDecoder) :
    event? d.buffer = d.finish.2.bind fun line => (Event.ofLine line).toOption := by
  have htrim : Text.trim (Text.trim (Text.Utf8.lossy d.buffer)) =
      Text.trim (Text.Utf8.lossy d.buffer) := by
    rw [Text.trim, Text.trim, String.toList_ofList, Text.trimChars_trimChars]
  rw [event?, LineDecoder.finish]
  dsimp only
  rw [Text.isEmpty_trim]
  split
  · rfl
  · rw [Option.bind_some, Event.ofLine, Event.ofLine, htrim]

lemma events_filterMap_line? (frames : List (List UInt8)) :
    events (frames.filterMap LineDecoder.line?) = frames.filterMap event? := by
  rw [events, List.filterMap_filterMap]
  exact List.filterMap_congr fun frame _ => (event?_eq_bind frame).symm

lemma upToTerminal_eq (es : List Event) : upToTerminal es = (heard es, es.any (·.isTerminal)) := by
  induction es with
  | nil => rfl
  | cons e es ih =>
    rw [upToTerminal]
    by_cases he : e.isTerminal <;> simp [he, ih, heard]

/-- Reading goes on behind events, unless one of them is terminal. -/
def after (es : List Event) (next : List Event × StreamEnd) : List Event × StreamEnd :=
  if es.any (·.isTerminal) then (heard es, .terminal) else (heard es ++ next.1, next.2)

lemma heard_cons (e : Event) (es : List Event) :
    heard (e :: es) = if e.isTerminal then [e] else e :: heard es := by
  cases he : e.isTerminal <;> simp [heard, he]

/-- Behind a terminal event nothing is heard. -/
lemma heard_append (es fs : List Event) :
    heard (es ++ fs) = if es.any (·.isTerminal) then heard es else heard es ++ heard fs := by
  induction es with
  | nil => rfl
  | cons e es ih =>
    rw [List.cons_append, heard_cons, heard_cons, List.any_cons, ih]
    cases e.isTerminal
    · cases es.any (·.isTerminal) <;> rfl
    · rfl

lemma after_outcome (es fs : List Event) (otherwise : StreamEnd) :
    after es (outcome fs otherwise) = outcome (es ++ fs) otherwise := by
  rw [after, outcome, outcome, List.any_append, heard_append]
  cases es.any (·.isTerminal) <;> rfl

lemma after_after (es fs : List Event) (next : List Event × StreamEnd) :
    after es (after fs next) = after (es ++ fs) next := by
  unfold after
  rw [List.any_append, heard_append]
  cases es.any (·.isTerminal)
  · cases fs.any (·.isTerminal) <;> simp
  · rfl

/-- One chunk: the reader goes on after the events of the frames that it completes. -/
lemma readFrom_bytes (d : LineDecoder) (bytes : List UInt8) (rest : List Chunk) :
    readFrom d (.bytes bytes :: rest) =
      after ((LineDecoder.complete (d.buffer ++ bytes)).filterMap event?)
        (readFrom ⟨LineDecoder.kept (d.buffer ++ bytes)⟩ rest) := by
  rw [readFrom, LineDecoder.push]
  dsimp only
  rw [events_filterMap_line?, upToTerminal_eq]
  rfl

/-- **Chunk after chunk**, the reader goes on after the events of the frames that were completed,
with what is left of the last one. -/
lemma readFrom_pieces (d : LineDecoder) (hd : LineDecoder.segments d.buffer = [d.buffer])
    (pieces : List (List UInt8)) (rest : List Chunk) :
    readFrom d (pieces.map .bytes ++ rest) =
      after ((LineDecoder.complete (d.buffer ++ pieces.flatten)).filterMap event?)
        (readFrom ⟨LineDecoder.kept (d.buffer ++ pieces.flatten)⟩ rest) := by
  induction pieces generalizing d with
  | nil =>
    rw [List.flatten_nil, List.append_nil, LineDecoder.complete, LineDecoder.kept, hd]
    rfl
  | cons piece pieces ih =>
    have hrest := ih ⟨LineDecoder.kept (d.buffer ++ piece)⟩ (LineDecoder.segments_kept _)
    rw [List.map_cons, List.cons_append, readFrom_bytes, hrest, after_after,
      ← List.filterMap_append, ← LineDecoder.complete_append, ← LineDecoder.kept_append,
      List.flatten_cons, List.append_assoc]

/-- At the end, the reader takes what is left for a frame. -/
lemma readFrom_nil (d : LineDecoder) :
    readFrom d [] = outcome ([d.buffer].filterMap event?) .truncated := by
  have hevents : events d.finish.2.toList = [d.buffer].filterMap event? := by
    rw [List.filterMap_cons, event?_eq_bind_finish, events]
    cases d.finish.2 <;> rfl
  rw [readFrom, hevents, upToTerminal_eq]
  rfl

/-- **Reading a stream does not depend on how it is cut.** The bytes of the pieces are split at
their line ends, and of each frame that is not blank, the last one without a line end among them,
the event is decoded, where there is one; the reader hears these up to the first terminal event,
and takes the stream for complete if there is one, and else for truncated. If the transport fails
instead, only the frames before it that have a line end count, and without a terminal event the
stream has failed. -/
theorem read_pieces (pieces : List (List UInt8)) :
    let frames := pieces.flatten.splitOn LineDecoder.newline
    read (pieces.map .bytes) = outcome (frames.filterMap event?) .truncated ∧
      ∀ message rest, read (pieces.map .bytes ++ .failed message :: rest) =
        outcome (frames.dropLast.filterMap event?) (.failed message) := by
  intro frames
  have hread := readFrom_pieces {} rfl pieces
  constructor
  · have hframes :
        frames = LineDecoder.complete pieces.flatten ++ [LineDecoder.kept pieces.flatten] :=
      LineDecoder.segments_eq pieces.flatten
    calc read (pieces.map .bytes)
        = readFrom {} (pieces.map .bytes ++ []) := by rw [List.append_nil, read]
      _ = after ((LineDecoder.complete pieces.flatten).filterMap event?)
            (outcome ([LineDecoder.kept pieces.flatten].filterMap event?) .truncated) := by
          rw [hread, readFrom_nil]
          rfl
      _ = outcome (frames.filterMap event?) .truncated := by
          rw [after_outcome, ← List.filterMap_append, ← hframes]
  · intro message rest
    rw [read, hread, readFrom]
    exact (after_outcome _ [] (.failed message)).trans (by rw [List.append_nil]; rfl)

end StreamReader

end ContractConversion
