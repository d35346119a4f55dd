import ContractConversion.Proofs.Except
import ContractConversion.Server.Http
import Mathlib.Algebra.Group.Nat.Defs
import Mathlib.Data.Nat.Notation
import Mathlib.Tactic.ByContra
import Mathlib.Tactic.Lemma

/-!
# When the limit of a body is enough

The limit of a body has four bytes for each character that a source may have, and 1024 besides. A
client writes the source as JSON, and there a character takes its one to four bytes of UTF-8, or two
if it has a short escape. Only a control character without one takes more, namely six
(`Json.size_escape_le`). So the limit is enough for a source with few such characters, and for all
sources only if so few characters are allowed that the 1024 bytes make up for every one of them
(`Http.fits_bodyLimit`).
-/

namespace ContractConversion

/-! ## The bytes of written text -/

namespace Text

/-- The bytes that characters take. -/
def size : List Char → ℕ
  | [] => 0
  | c :: cs => c.utf8Size + size cs

@[simp] lemma size_nil : size [] = 0 := rfl

@[simp] lemma size_cons (c : Char) (cs : List Char) : size (c :: cs) = c.utf8Size + size cs := rfl

@[simp] lemma size_append (cs ds : List Char) : size (cs ++ ds) = size cs + size ds := by
  induction cs with
  | nil => simp
  | cons c cs ih => rw [List.cons_append, size_cons, size_cons, ih, Nat.add_assoc]

/-- A text is encoded in the bytes of its characters. -/
lemma length_encode (s : String) : (Utf8.encode s).length = size s.toList := by
  rw [Utf8.encode]
  induction s.toList with
  | nil => rfl
  | cons c cs ih =>
    rw [List.flatMap_cons, List.length_append, String.length_utf8EncodeChar, ih, size_cons]

end Text

namespace Json

/-- A control character without a short escape; it is written by its number. -/
def isSpelt (c : Char) : Bool :=
  c.toNat < 0x20 && c ∉ ['\x08', '\t', '\n', '\x0c', '\r']

/-- The characters of a text that are written by their number. -/
def spelt (s : String) : ℕ :=
  s.toList.countP isSpelt

/-- A digit takes one byte. -/
lemma utf8Size_digitChar {n : ℕ} (h : n < 16) : (Nat.digitChar n).utf8Size = 1 := by
  have hall : ∀ k < 16, (Nat.digitChar k).utf8Size = 1 := by decide
  exact hall n h

/-- A written character takes at most four bytes, and two more exactly if it is written by its
number. -/
lemma size_escape_le (c : Char) :
    Text.size (escape c) ≤ 4 + (if isSpelt c then 2 else 0) ∧
      (isSpelt c = true → Text.size (escape c) = 6) := by
  unfold escape
  split
  -- the seven short escapes
  · decide
  · decide
  · decide
  · decide
  · decide
  · decide
  · decide
  · next hbackspace htab hnewline hfeed hreturn =>
    split
    · next hcontrol =>
      have hspelt : isSpelt c = true := by
        simpa [isSpelt, hcontrol] using ⟨hbackspace, htab, hnewline, hfeed, hreturn⟩
      have hlead : Text.size ['\\', 'u', '0', '0'] = 4 := by decide
      have hhigh := utf8Size_digitChar (n := c.toNat / 16) (by omega)
      have hlow := utf8Size_digitChar (n := c.toNat % 16) (by omega)
      have hsize : Text.size (['\\', 'u', '0', '0'] ++
          [Nat.digitChar (c.toNat / 16), Nat.digitChar (c.toNat % 16)]) = 6 := by
        rw [Text.size_append, hlead, Text.size_cons, Text.size_cons, hhigh, hlow, Text.size_nil]
      rw [if_pos hspelt]
      exact ⟨Nat.le_of_eq hsize, fun _ => hsize⟩
    · next hcontrol =>
      have hplain : isSpelt c = false := by simp [isSpelt, hcontrol]
      simpa [hplain] using c.utf8Size_le_four

/-- Written characters take at most four bytes each, and two more where one is written by its
number. -/
lemma size_escaped_le (cs : List Char) :
    Text.size (cs.flatMap escape) ≤ 4 * cs.length + 2 * cs.countP isSpelt := by
  induction cs with
  | nil => exact Nat.zero_le _
  | cons c cs ih =>
    have hc := (size_escape_le c).1
    rw [List.flatMap_cons, Text.size_append, List.length_cons, List.countP_cons]
    split at hc
    · next hspelt =>
      rw [if_pos hspelt]
      omega
    · next hplain =>
      rw [if_neg hplain]
      omega

/-- A character that is written by its number takes six bytes each time. -/
lemma size_escaped_replicate {c : Char} (h : isSpelt c = true) (n : ℕ) :
    Text.size ((List.replicate n c).flatMap escape) = 6 * n := by
  induction n with
  | zero => rfl
  | succ n ih =>
    rw [List.replicate_succ, List.flatMap_cons, Text.size_append, ih, (size_escape_le c).2 h]
    omega

end Json

/-! ## The body of a request -/

namespace ConversionRequest

/-- Thirteen bytes stand around the source. -/
lemma length_body (source : String) :
    (body ⟨source⟩).length = Text.size (source.toList.flatMap Json.escape) + 13 := by
  have hbefore : Text.size ('\x7b' :: Json.quote "source" ++ [':', '"']) = 11 := by decide
  have hbehind : Text.size ['"', '\x7d'] = 2 := by decide
  have hchars : (Wire.conversionRequest.encode ⟨source⟩).compactChars =
      '\x7b' :: Json.quote "source" ++ [':', '"'] ++ source.toList.flatMap Json.escape ++
        ['"', '\x7d'] := by
    show '\x7b' :: (Json.quote "source" ++ ':' :: Json.quote source) ++ ['\x7d'] = _
    simp [Json.quote]
  rw [body, Text.length_encode, Json.Value.compact, String.toList_ofList, hchars,
    Text.size_append, Text.size_append, hbefore, hbehind]
  omega

end ConversionRequest

/-! ## The limit -/

/-- A text of control characters that have to be written by their number. -/
def controls (n : ℕ) : String :=
  String.ofList (List.replicate n '\x01')

lemma length_body_controls (n : ℕ) : (ConversionRequest.body ⟨controls n⟩).length = 6 * n + 13 := by
  rw [ConversionRequest.length_body, controls, String.toList_ofList,
    Json.size_escaped_replicate (by decide)]

namespace Settings

variable {s : Settings} {source : String}

/-- A source without objection has no more characters than are allowed. -/
lemma length_le_of_checkInput (h : s.checkInput source = .ok ()) :
    source.length ≤ s.maxSourceChars ∧ s.minSourceChars ≤ source.length := by
  rw [checkInput] at h
  split at h
  · cases h
  · split at h
    · cases h
    · split at h
      · cases h
      · omega

/-- Control characters are no blanks, so there is an objection to them only for their number. -/
lemma checkInput_controls (hpos : 0 < s.maxSourceChars) (h : s.minSourceChars ≤ s.maxSourceChars) :
    s.checkInput (controls s.maxSourceChars) = .ok () := by
  have hlength : (controls s.maxSourceChars).length = s.maxSourceChars := by
    simp [controls]
  have hblank : Text.allBlank (controls s.maxSourceChars) = false := by
    obtain ⟨n, hn⟩ := Nat.exists_eq_succ_of_ne_zero (Nat.ne_of_gt hpos)
    rw [hn, controls, Text.allBlank, String.toList_ofList, List.replicate_succ, List.all_cons]
    rfl
  simp [checkInput, hblank, hlength, Nat.not_lt.mpr h]

/-- The limit is enough for few characters that are written by their number. -/
lemma length_body_le (h : s.checkInput source = .ok ()) (hspelt : Json.spelt source ≤ 505)
    (hlength : (ConversionRequest.body ⟨source⟩).length < 2 ^ 64) :
    (ConversionRequest.body ⟨source⟩).length ≤ s.bodyLimit := by
  have hsize := Json.size_escaped_le source.toList
  have hcount := (length_le_of_checkInput h).1
  rw [String.length_toList] at hsize
  rw [Json.spelt] at hspelt
  rw [bodyLimit, Nat.pow_eq]
  have hbody := ConversionRequest.length_body source
  omega

end Settings

namespace Http

variable {server : Server} {source : String}

/-- A request that says it is JSON is refused for its size exactly if its body is over the limit. -/
lemma convert_eq_bodyTooLarge {r : Request}
    (hjson : (r.header? "content-type").any MediaType.isJson = true) :
    convert server r = .error .bodyTooLarge ↔ server.settings.bodyLimit < r.body.length := by
  rw [convert, hjson]
  generalize server.settings.bodyLimit = limit
  by_cases hover : limit < r.body.length
  · rw [if_pos hover]
    exact ⟨fun _ => hover, fun _ => rfl⟩
  · rw [if_neg hover]
    -- a body within the limit is refused for what it says, or because the server is busy
    refine ⟨fun h => ?_, fun hover' => absurd hover' hover⟩
    rcases bind_eq_error.mp h with h | ⟨request, -, h⟩
    · obtain ⟨fault, -, h⟩ := mapError_eq_error.mp h
      cases h
    · rcases bind_eq_error.mp h with h | ⟨-, -, h⟩
      · obtain ⟨fault, -, h⟩ := mapError_eq_error.mp h
        cases h
      · split at h <;> cases h

/-- A request from a client says that it is JSON. -/
lemma Request.isJson_ofSource (source : String) :
    ((ofSource source).header? "content-type").any MediaType.isJson = true := by
  have hname : "content-type".toLower = "content-type" := by decide +kernel
  have htype : MediaType.isJson "application/json" = true := by decide +kernel
  simp [header?, ofSource, hname, htype]

/-- A request from a client is refused for its size exactly if its body is over the limit. -/
lemma convert_ofSource :
    convert server (.ofSource source) = .error .bodyTooLarge ↔
      server.settings.bodyLimit < (ConversionRequest.body ⟨source⟩).length := by
  rw [convert_eq_bodyTooLarge (Request.isJson_ofSource source), Request.ofSource]

/-- **When the limit of a body is enough.** A request is refused for its size exactly if its body is
over the limit. That does not happen to a source that passes the check of its length and has at most
505 characters that JSON writes by their number; and it happens to no source that passes the check
only if at most 505 characters are allowed, or none pass it. -/
theorem fits_bodyLimit (server : Server) :
    (∀ source, convert server (.ofSource source) = .error .bodyTooLarge ↔
      server.settings.bodyLimit < (ConversionRequest.body ⟨source⟩).length) ∧
    (∀ source, server.settings.checkInput source = .ok () → Json.spelt source ≤ 505 →
      (ConversionRequest.body ⟨source⟩).length < 2 ^ 64 →
      (ConversionRequest.body ⟨source⟩).length ≤ server.settings.bodyLimit) ∧
    ((∀ source, server.settings.checkInput source = .ok () →
      (ConversionRequest.body ⟨source⟩).length ≤ server.settings.bodyLimit) ↔
      server.settings.maxSourceChars ≤ 505 ∨
        server.settings.maxSourceChars < server.settings.minSourceChars) := by
  refine ⟨fun _ => convert_ofSource, fun source hcheck hspelt hlength => ?_, fun hall => ?_,
    fun hfew source hcheck => ?_⟩
  · exact Settings.length_body_le hcheck hspelt hlength
  · -- a source of control characters that is as long as allowed would be over the limit
    by_contra hmany
    obtain ⟨hmax, hmin⟩ := not_or.mp hmany
    have hbody := hall _ (Settings.checkInput_controls (by omega) (by omega))
    rw [length_body_controls, Settings.bodyLimit] at hbody
    omega
  · obtain ⟨hmax, hmin⟩ := Settings.length_le_of_checkInput hcheck
    have hspelt : Json.spelt source ≤ source.length := by
      rw [Json.spelt, ← String.length_toList]
      exact List.countP_le_length
    have hsize := Json.size_escaped_le source.toList
    rw [← Json.spelt, String.length_toList] at hsize
    refine Settings.length_body_le hcheck (by omega) ?_
    rw [ConversionRequest.length_body]
    omega

/-- A source of 506 control characters passes a check that allows 506 characters, and its request is
one byte over the limit. -/
theorem not_fits_of_controls :
    let server : Server :=
      { settings := { maxSourceChars := 506 }, admission := { limit := 1 } }
    server.settings.checkInput (controls 506) = .ok () ∧
      (ConversionRequest.body ⟨controls 506⟩).length = server.settings.bodyLimit + 1 ∧
      convert server (.ofSource (controls 506)) = .error .bodyTooLarge := by
  intro server
  have hlimit : server.settings.bodyLimit = 3048 := by decide
  have hbody := length_body_controls 506
  have hcheck := Settings.checkInput_controls (s := server.settings) (by decide) (by decide)
  have hover : server.settings.bodyLimit < (ConversionRequest.body ⟨controls 506⟩).length := by
    rw [hlimit, hbody]
    decide
  have hrefused := convert_ofSource.mpr hover
  refine ⟨hcheck, ?_, hrefused⟩
  rw [hlimit, hbody]

end Http

end ContractConversion
