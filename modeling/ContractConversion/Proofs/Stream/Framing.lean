import ContractConversion.Proofs.Stream.Reading
import ContractConversion.Proofs.Text.Utf8

/-!
# A line decoder finds the lines

What a line decoder returns is told by the bytes alone (`LineDecoder.pushAll_framed`): the bytes
before each line end, decoded as a whole, without the carriage returns at their end, and without the
blank ones. It keeps what stands behind the last line end.

A push takes one line after the other off the front of the buffer until no line end is left in it
(`LineDecoder.pushLoop`). That is cutting the buffer at all its line ends at once
(`LineDecoder.push_eq_pushLoop`), and what is kept of the bytes so far is the invariant from one
push to the next: it has no line end, so the lines of all chunks are those of the chunks put
together.
-/

namespace ContractConversion

namespace Text

/-- A text within another one, with blank characters around it and none at its ends. -/
structure IsTrimOf (whole text : String) : Prop where
  around : ∃ front back, whole = front ++ text ++ back ∧ allBlank front ∧ allBlank back
  first : ∀ c ∈ text.toList.head?, ¬isBlank c
  last : ∀ c ∈ text.toList.getLast?, ¬isBlank c

lemma isTrimOf_trim (whole : String) : IsTrimOf whole (trim whole) where
  around := by
    obtain ⟨front, back, hwhole, hfront, hback⟩ := exists_trimChars whole.toList
    refine ⟨String.ofList front, String.ofList back, ?_, ?_, ?_⟩
    · rw [trim, ← String.ofList_append, ← String.ofList_append, ← hwhole, String.ofList_toList]
    · rw [allBlank, String.toList_ofList, List.all_eq_true]
      exact hfront
    · rw [allBlank, String.toList_ofList, List.all_eq_true]
      exact hback
  first c hc := by
    rw [Option.mem_def, trim, String.toList_ofList] at hc
    have hhead : (whole.toList.dropWhile isBlank).head? = some c := by
      obtain ⟨back, hback⟩ : trimChars whole.toList <+: whole.toList.dropWhile isBlank :=
        List.rdropWhile_prefix _ _
      rw [← hback, List.head?_append, hc, Option.some_or]
    have hnot := List.head?_dropWhile_not isBlank whole.toList
    rw [hhead] at hnot
    exact Bool.eq_false_iff.mp hnot
  last c hc := by
    rw [trim, String.toList_ofList] at hc
    obtain ⟨hne, rfl⟩ := List.mem_getLast?_eq_getLast hc
    exact List.rdropWhile_last_not isBlank _ hne

end Text

namespace LineDecoder

/-! ## The loop of a push -/

/-- Takes the first line off the buffer, again and again, until the buffer has no line end. -/
def drain (buffer : List UInt8) (lines : List String) : List UInt8 × List String :=
  match _h : buffer.idxOf? newline with
  | none => (buffer, lines)
  | some pos => drain (buffer.drop (pos + 1)) (lines ++ (line? (buffer.take pos)).toList)
termination_by buffer.length
decreasing_by
  obtain ⟨hpos, -⟩ := List.idxOf?_eq_some_iff.mp _h
  rw [List.length_drop]
  omega

/-- Takes in a chunk line by line. -/
def pushLoop (d : LineDecoder) (chunk : List UInt8) : LineDecoder × List String :=
  let (buffer, lines) := drain (d.buffer ++ chunk) []
  (⟨buffer⟩, lines)

lemma segments_of_notMem {bytes : List UInt8} (h : newline ∉ bytes) : segments bytes = [bytes] :=
  List.splitOn_eq_singleton h

/-- The first line end cuts off the first segment. -/
lemma segments_line {frame : List UInt8} (h : newline ∉ frame) (rest : List UInt8) :
    segments (frame ++ newline :: rest) = frame :: segments rest := by
  have hframe : ∀ b ∈ frame, (b == newline) = false := fun b hb =>
    beq_eq_false_iff_ne.mpr fun heq => h (heq ▸ hb)
  exact List.splitOnP_append_cons_of_forall_mem hframe newline (beq_self_eq_true newline) rest

/-- Where the first line end is, the buffer falls into the first line and what follows it. -/
lemma eq_of_idxOf?_eq_some {buffer : List UInt8} {pos : ℕ}
    (h : buffer.idxOf? newline = some pos) :
    buffer = buffer.take pos ++ newline :: buffer.drop (pos + 1) ∧ newline ∉ buffer.take pos := by
  obtain ⟨hpos, heq, hfirst⟩ := List.idxOf?_eq_some_iff.mp h
  constructor
  · rw [← heq, List.getElem_cons_drop, List.take_append_drop]
  · intro hmem
    obtain ⟨i, hi, hbyte⟩ := List.mem_take_iff_getElem.mp hmem
    exact hfirst i (by omega) hbyte

/-- **The loop cuts the buffer at all its line ends**: it comes to an end with what the last one
leaves, and with the lines of the segments before that. -/
lemma drain_eq (buffer : List UInt8) (lines : List String) :
    drain buffer lines = (kept buffer, lines ++ (complete buffer).filterMap line?) := by
  fun_induction drain buffer lines with
  | case1 buffer lines hnone =>
    have hsegments := segments_of_notMem (List.idxOf?_eq_none_iff.mp hnone)
    simp [kept, complete, hsegments]
  | case2 buffer lines pos hsome ih =>
    -- the line that is taken off is the first segment, and what is left has all the others
    obtain ⟨hbuffer, hframe⟩ := eq_of_idxOf?_eq_some hsome
    have hsegments := segments_line hframe (buffer.drop (pos + 1))
    rw [← hbuffer] at hsegments
    have hne : segments (buffer.drop (pos + 1)) ≠ [] := List.splitOn_ne_nil _ _
    have hkept : kept buffer = kept (buffer.drop (pos + 1)) := by
      rw [kept, kept, hsegments, List.getLast?_cons_of_ne_nil hne]
    have hcomplete : complete buffer = buffer.take pos :: complete (buffer.drop (pos + 1)) := by
      rw [complete, complete, hsegments, List.dropLast_cons_of_ne_nil hne]
    rw [ih, hkept, hcomplete, List.filterMap_cons]
    cases line? (buffer.take pos) <;> simp

/-- Cutting the buffer at all its line ends is taking line after line off it. -/
lemma push_eq_pushLoop (d : LineDecoder) (chunk : List UInt8) :
    d.push chunk = d.pushLoop chunk := by
  rw [pushLoop, drain_eq]
  rfl

/-! ## The lines of a byte string -/

/-- A byte string cut at its line ends: the frames, each with a line end behind it, and what stands
behind the last line end. -/
structure Framed (bytes : List UInt8) (frames : List (List UInt8)) (rest : List UInt8) : Prop where
  bytes_eq : bytes = frames.flatMap (· ++ [newline]) ++ rest
  notMem_frame : ∀ frame ∈ frames, newline ∉ frame
  notMem_rest : newline ∉ rest

lemma exists_framed (bytes : List UInt8) : ∃ frames rest, Framed bytes frames rest := by
  induction bytes with
  | nil => exact ⟨[], [], rfl, by simp, by simp⟩
  | cons b bytes ih =>
    obtain ⟨frames, rest, heq, hframes, hrest⟩ := ih
    by_cases hb : b = newline
    · exact ⟨[] :: frames, rest, by simp [hb, heq], by simpa using hframes, hrest⟩
    · -- the byte goes in front of the first frame, or of the rest if there is no frame
      have hb' : newline ≠ b := fun h => hb h.symm
      cases frames with
      | nil => exact ⟨[], b :: rest, by simp [heq], by simp, by simp [hb', hrest]⟩
      | cons frame frames =>
        rw [List.forall_mem_cons] at hframes
        refine ⟨(b :: frame) :: frames, rest, by simp [heq], ?_, hrest⟩
        rw [List.forall_mem_cons]
        exact ⟨by simp [hb', hframes.1], hframes.2⟩

/-- There is one way only to cut a byte string at its line ends. -/
lemma Framed.segments_eq {bytes rest : List UInt8} {frames : List (List UInt8)}
    (h : Framed bytes frames rest) : segments bytes = frames ++ [rest] := by
  obtain ⟨rfl, hframes, hrest⟩ := h
  induction frames with
  | nil => exact segments_of_notMem hrest
  | cons frame frames ih =>
    rw [List.forall_mem_cons] at hframes
    have hbytes : (frame :: frames).flatMap (· ++ [newline]) ++ rest =
        frame ++ newline :: (frames.flatMap (· ++ [newline]) ++ rest) := by simp
    rw [hbytes, segments_line hframes.1, ih hframes.2, List.cons_append]

lemma Framed.complete_eq {bytes rest : List UInt8} {frames : List (List UInt8)}
    (h : Framed bytes frames rest) : complete bytes = frames := by
  rw [complete, h.segments_eq, List.dropLast_concat]

lemma Framed.kept_eq {bytes rest : List UInt8} {frames : List (List UInt8)}
    (h : Framed bytes frames rest) : kept bytes = rest := by
  rw [kept, h.segments_eq, List.getLast?_concat, Option.getD_some]

/-! ## The line of a frame -/

/-- The text of a frame without the carriage returns at its end. -/
structure IsLineOf (frame : List UInt8) (line : String) : Prop where
  text : ∃ n, Text.Utf8.lossy frame = line ++ String.ofList (List.replicate n '\r')
  last : line.toList.getLast? ≠ some '\r'

/-- The frames that have more in them than white space. -/
def written (frames : List (List UInt8)) : List (List UInt8) :=
  frames.filter fun frame => !Text.allBlank (Text.Utf8.lossy frame)

lemma isLineOf_lineText (frame : List UInt8) : IsLineOf frame (String.ofList (lineText frame)) where
  text := by
    obtain ⟨n, htext⟩ := exists_lineText frame
    exact ⟨n, by rw [← String.ofList_append, ← htext, String.ofList_toList]⟩
  last h := by
    rw [String.toList_ofList] at h
    obtain ⟨hne, hlast⟩ := List.mem_getLast?_eq_getLast h
    have hnot := List.rdropWhile_last_not (· = '\r') _ hne
    exact hnot (decide_eq_true hlast.symm)

/-- A line has no line end in it: the character is read from its own byte only. -/
lemma IsLineOf.notMem_newline {frame : List UInt8} {line : String} (h : IsLineOf frame line)
    (hframe : newline ∉ frame) : '\n' ∉ line.toList := by
  intro hmem
  obtain ⟨n, htext⟩ := h.text
  have hread : '\n' ∈ (Text.Utf8.lossy frame).toList := by
    rw [htext, String.toList_append]
    exact List.mem_append_left _ hmem
  obtain ⟨b, hb, hbyte⟩ := Text.Utf8.exists_byte_of_mem_lossy (by decide) (by decide) hread
  have hnewline : b = newline := UInt8.toNat_inj.mp hbyte
  exact hframe (hnewline ▸ hb)

lemma line?_eq (frame : List UInt8) :
    line? frame = if Text.allBlank (Text.Utf8.lossy frame) then none
      else some (String.ofList (lineText frame)) := by
  rw [← all_isBlank_lineText]
  rfl

lemma isLineOf_of_line? {frame : List UInt8} {line : String} (h : line? frame = some line) :
    IsLineOf frame line := by
  rw [line?_eq] at h
  split at h
  · cases h
  · obtain rfl := Option.some.inj h
    exact isLineOf_lineText frame

/-- Each frame that has more in it than white space has a line, and the others have none. -/
lemma forall₂_filterMap_line? (frames : List (List UInt8)) :
    List.Forall₂ IsLineOf (written frames) (frames.filterMap line?) := by
  induction frames with
  | nil => exact .nil
  | cons frame frames ih =>
    rw [written, List.filter_cons, List.filterMap_cons, line?_eq]
    cases Text.allBlank (Text.Utf8.lossy frame)
    · exact .cons (isLineOf_lineText frame) ih
    · exact ih

lemma finish_snd (d : LineDecoder) :
    d.finish.2 = if Text.allBlank (Text.Utf8.lossy d.buffer) then none
      else some (Text.trim (Text.Utf8.lossy d.buffer)) := by
  rw [finish]
  dsimp only
  rw [Text.isEmpty_trim]

/-! ## Chunk after chunk -/

/-- Takes in one chunk after the other: all the lines that they complete, in order. -/
def pushAll (d : LineDecoder) : List (List UInt8) → LineDecoder × List String
  | [] => (d, [])
  | chunk :: chunks =>
    let (d, lines) := d.push chunk
    let (d, more) := d.pushAll chunks
    (d, lines ++ more)

/-- **The chunks count put together only**, as long as no line end is kept. -/
lemma pushAll_eq (d : LineDecoder) (hd : segments d.buffer = [d.buffer])
    (chunks : List (List UInt8)) :
    d.pushAll chunks = (⟨kept (d.buffer ++ chunks.flatten)⟩,
      (complete (d.buffer ++ chunks.flatten)).filterMap line?) := by
  induction chunks generalizing d with
  | nil =>
    rw [List.flatten_nil, List.append_nil, complete, kept, hd]
    rfl
  | cons chunk chunks ih =>
    have hpush : d.push chunk = (⟨kept (d.buffer ++ chunk)⟩,
        (complete (d.buffer ++ chunk)).filterMap line?) := rfl
    -- what the first chunk leaves has no line end, so the others go on from there
    have hrest := ih ⟨kept (d.buffer ++ chunk)⟩ (segments_kept _)
    rw [pushAll, hpush]
    dsimp only
    rw [hrest, List.flatten_cons, ← List.append_assoc, complete_append (d.buffer ++ chunk),
      kept_append (d.buffer ++ chunk), List.filterMap_append]

/-- **A line decoder finds the lines.** Every push takes line after line off the front of the
buffer, and comes to an end. However bytes are cut into chunks, there is one way to cut them at
their line ends, and the lines that the pushes return are those of the frames with a line end, in
their order: each decoded as a whole and without the carriage returns at its end, the blank ones
left out. None of them has a line end in it. The buffer has what stands behind the last line end; at
the end it is empty, and what it had is returned, trimmed, if it is not blank. Other chunks of the
same bytes give the same lines and leave the same rest. -/
theorem pushAll_framed (chunks : List (List UInt8)) :
    (∀ (d : LineDecoder) (chunk : List UInt8), d.push chunk = d.pushLoop chunk) ∧
      ∃ frames rest, Framed chunks.flatten frames rest ∧
        (∀ frames' rest', Framed chunks.flatten frames' rest' → frames' = frames ∧ rest' = rest) ∧
        ∃ d lines, pushAll {} chunks = (d, lines) ∧
          List.Forall₂ IsLineOf (written frames) lines ∧
          (∀ line ∈ lines, '\n' ∉ line.toList) ∧
          d.buffer = rest ∧
          d.finish.1.buffer = [] ∧
          (d.finish.2.isSome ↔ ¬Text.allBlank (Text.Utf8.lossy rest)) ∧
          (∀ text ∈ d.finish.2, Text.IsTrimOf (Text.Utf8.lossy rest) text) ∧
          ∀ chunks', chunks'.flatten = chunks.flatten → pushAll {} chunks' = (d, lines) := by
  refine ⟨push_eq_pushLoop, ?_⟩
  obtain ⟨frames, rest, hframed⟩ := exists_framed chunks.flatten
  have hall : ∀ chunks', chunks'.flatten = chunks.flatten →
      pushAll {} chunks' = (⟨rest⟩, frames.filterMap line?) := fun chunks' hflatten => by
    have hbytes : ({} : LineDecoder).buffer ++ chunks'.flatten = chunks.flatten := hflatten
    rw [pushAll_eq {} rfl, hbytes, hframed.complete_eq, hframed.kept_eq]
  refine ⟨frames, rest, hframed, fun frames' rest' h => ?_, ⟨rest⟩, frames.filterMap line?,
    hall chunks rfl, forall₂_filterMap_line? frames, fun line hline => ?_, rfl, rfl, ?_,
    fun text htext => ?_, hall⟩
  · exact ⟨h.complete_eq.symm.trans hframed.complete_eq, h.kept_eq.symm.trans hframed.kept_eq⟩
  · obtain ⟨frame, hframe, hread⟩ := List.mem_filterMap.mp hline
    exact (isLineOf_of_line? hread).notMem_newline (hframed.notMem_frame frame hframe)
  · rw [finish_snd]
    split <;> simp [*]
  · rw [finish_snd] at htext
    split at htext
    · cases htext
    · obtain rfl := Option.some.inj htext
      exact Text.isTrimOf_trim _

/-- The first cut is inside a character and the second one between a carriage return and a line
end. -/
example : pushAll {} [[0xC3], [0xA9, 13], [10, 32, 13, 10, 97]] = (⟨[97]⟩, ["é"]) := by decide

end LineDecoder

end ContractConversion
