import ContractConversion.Text.Utf8
import Mathlib.Data.Nat.Notation
import Mathlib.Tactic.Lemma
import Mathlib.Tactic.SplitIfs

/-!
# The bytes of a text read back

Each character of a text is read back from its bytes: its first byte says how many follow and keeps
out what is encoded in fewer bytes, and each of the others adds six bits (`Utf8.run_char`). So the
bytes of a text are read as its characters, without a stray run (`Utf8.symbols_encode`).

Bytes of any kind are read without a character of one byte that is not there: such a character
comes from its own byte, since a character under construction is above 0x7F whatever goes on with it
(`Utf8.exists_byte_of_mem_lossy`).
-/

namespace ContractConversion.Text.Utf8

/-! ## One byte -/

lemma toNat_ofNat {n : ℕ} (h : n < 256) : (UInt8.ofNat n).toNat = n := by
  rw [UInt8.toNat_ofNat', Nat.mod_eq_of_lt h]

lemma start_ascii {n : ℕ} (h : n < 0x80) : start (.ofNat n) = ([.char (Char.ofNat n)], .idle) := by
  rw [start, toNat_ofNat (by omega), if_pos h]

/-- The first of two bytes. -/
lemma start_two {n : ℕ} (hlow : 0xC2 ≤ n) (hhigh : n < 0xE0) :
    start (.ofNat n) = ([], .inside [.ofNat n] (n - 0xC0) 1 0x80 0xBF) := by
  rw [start, toNat_ofNat (by omega), if_neg (by omega), if_neg (by omega), if_pos hhigh]

/-- The first of three bytes; the second one may be any byte that goes on, but not one of a
character of fewer bytes and not one of a surrogate. -/
lemma start_three {n m : ℕ} (hlow : 0xE0 ≤ n) (hhigh : n < 0xF0) (hm : 0x80 ≤ m ∧ m ≤ 0xBF)
    (hlong : n = 0xE0 → 0xA0 ≤ m) (hsurrogate : n = 0xED → m ≤ 0x9F) :
    ∃ low high, low ≤ m ∧ m ≤ high ∧
      start (.ofNat n) = ([], .inside [.ofNat n] (n - 0xE0) 2 low high) := by
  have hskip : ∀ {α : Type} (a b c d : α), (if n < 0x80 then a else if n < 0xC2 then b
      else if n < 0xE0 then c else d) = d := fun a b c d => by
    rw [if_neg (by omega), if_neg (by omega), if_neg (by omega)]
  rw [start, toNat_ofNat (by omega), hskip]
  by_cases hfirst : n = 0xE0
  · rw [if_pos hfirst, hfirst]
    exact ⟨0xA0, 0xBF, hlong hfirst, hm.2, rfl⟩
  · rw [if_neg hfirst]
    by_cases hed : n = 0xED
    · rw [if_pos hed, hed]
      exact ⟨0x80, 0x9F, hm.1, hsurrogate hed, rfl⟩
    · rw [if_neg hed, if_pos hhigh]
      exact ⟨0x80, 0xBF, hm.1, hm.2, rfl⟩

/-- The first of four bytes; the second one may be any byte that goes on, but not one of a character
of fewer bytes and not one of a number that is too large. -/
lemma start_four {n m : ℕ} (hlow : 0xF0 ≤ n) (hhigh : n < 0xF5) (hm : 0x80 ≤ m ∧ m ≤ 0xBF)
    (hlong : n = 0xF0 → 0x90 ≤ m) (hlarge : n = 0xF4 → m ≤ 0x8F) :
    ∃ low high, low ≤ m ∧ m ≤ high ∧
      start (.ofNat n) = ([], .inside [.ofNat n] (n - 0xF0) 3 low high) := by
  have hskip : ∀ {α : Type} (a b c d e f g : α), (if n < 0x80 then a else if n < 0xC2 then b
      else if n < 0xE0 then c else if n = 0xE0 then d else if n = 0xED then e
      else if n < 0xF0 then f else g) = g := fun a b c d e f g => by
    rw [if_neg (by omega), if_neg (by omega), if_neg (by omega), if_neg (by omega),
      if_neg (by omega), if_neg (by omega)]
  rw [start, toNat_ofNat (by omega), hskip]
  by_cases hfirst : n = 0xF0
  · rw [if_pos hfirst, hfirst]
    exact ⟨0x90, 0xBF, hlong hfirst, hm.2, rfl⟩
  · rw [if_neg hfirst]
    by_cases hmid : n < 0xF4
    · rw [if_pos hmid]
      exact ⟨0x80, 0xBF, hm.1, hm.2, rfl⟩
    · obtain rfl : n = 0xF4 := by omega
      exact ⟨0x80, 0x8F, hm.1, hlarge rfl, rfl⟩

section

variable {bytes : List UInt8} {bits low high n : ℕ}

/-- A byte in the middle of a character. -/
lemma step_inside (hlow : low ≤ n) (hhigh : n ≤ high) (h : n < 256) (missing : ℕ) :
    step (.ofNat n) (.inside bytes bits (missing + 2) low high) =
      ([], .inside (.ofNat n :: bytes) (bits * 64 + (n - 0x80)) (missing + 1) 0x80 0xBF) := by
  rw [step, toNat_ofNat h, if_pos ⟨hlow, hhigh⟩, if_neg (by omega)]
  rfl

/-- The last byte of a character. -/
lemma step_last (hlow : low ≤ n) (hhigh : n ≤ high) (h : n < 256) :
    step (.ofNat n) (.inside bytes bits 1 low high) =
      ([.char (Char.ofNat (bits * 64 + (n - 0x80)))], .idle) := by
  rw [step, toNat_ofNat h, if_pos ⟨hlow, hhigh⟩, if_pos (Nat.le_refl 1)]

end

/-! ## One character -/

lemma run_cons (b : UInt8) (bytes : List UInt8) (out : List Symbol) (state : State) :
    run (b :: bytes) (out, state) =
      run bytes ((step b state).1 ++ out, (step b state).2) :=
  rfl

lemma run_nil (before : List Symbol × State) : run [] before = before :=
  rfl

lemma run_append (xs ys : List UInt8) (before : List Symbol × State) :
    run (xs ++ ys) before = run ys (run xs before) :=
  List.foldl_append

/-- **A character is read back from its bytes.** -/
lemma run_char (c : Char) (out : List Symbol) :
    run (String.utf8EncodeChar c) (out, .idle) = (.char c :: out, .idle) := by
  have hvalid : c.toNat < 0xD800 ∨ 0xDFFF < c.toNat ∧ c.toNat < 0x110000 := c.valid
  have hc : Char.ofNat c.toNat = c := Char.ofNat_toNat c
  have hval : c.val.toNat = c.toNat := rfl
  rw [String.utf8EncodeChar, hval]
  generalize c.toNat = v at hvalid hc
  split
  · next hone =>
    rw [run_cons, step, start_ascii (by omega), hc]
    rfl
  split
  · next hone htwo =>
    rw [run_cons, step, start_two (by omega) (by omega), run_cons, step_last (by omega) (by omega)
      (by omega), run_nil, ← hc]
    have hbits : (v / 64 % 32 + 192 - 192) * 64 + (v % 64 + 128 - 128) = v := by omega
    rw [hbits]
    rfl
  split
  · next hone htwo hthree =>
    obtain ⟨low, high, hlow, hhigh, hstart⟩ := start_three (n := v / 4096 % 16 + 224)
      (m := v / 64 % 64 + 128) (by omega) (by omega) (by omega) (by omega) (by omega)
    rw [run_cons, step, hstart, run_cons, step_inside hlow hhigh (by omega), run_cons,
      step_last (by omega) (by omega) (by omega), run_nil, ← hc]
    have hbits : ((v / 4096 % 16 + 224 - 224) * 64 + (v / 64 % 64 + 128 - 128)) * 64 +
        (v % 64 + 128 - 128) = v := by omega
    rw [hbits]
    rfl
  · next hone htwo hthree =>
    obtain ⟨low, high, hlow, hhigh, hstart⟩ := start_four (n := v / 262144 % 8 + 240)
      (m := v / 4096 % 64 + 128) (by omega) (by omega) (by omega) (by omega) (by omega)
    rw [run_cons, step, hstart, run_cons, step_inside hlow hhigh (by omega), run_cons,
      step_inside (by omega) (by omega) (by omega), run_cons,
      step_last (by omega) (by omega) (by omega), run_nil, ← hc]
    have hbits : (((v / 262144 % 8 + 240 - 240) * 64 + (v / 4096 % 64 + 128 - 128)) * 64 +
        (v / 64 % 64 + 128 - 128)) * 64 + (v % 64 + 128 - 128) = v := by omega
    rw [hbits]
    rfl

/-! ## A whole text -/

lemma encode_append (s t : String) : encode (s ++ t) = encode s ++ encode t := by
  rw [encode, String.toList_append, List.flatMap_append]
  rfl

/-- **The bytes of a text are read as its characters.** -/
theorem symbols_encode (s : String) : symbols (encode s) = symbolsOf s := by
  have hrun : ∀ (cs : List Char) (out : List Symbol),
      run (cs.flatMap String.utf8EncodeChar) (out, .idle) =
        ((cs.map Symbol.char).reverse ++ out, .idle) := by
    intro cs
    induction cs with
    | nil => exact fun _ => rfl
    | cons c cs ih =>
      intro out
      rw [List.flatMap_cons, run_append, run_char, ih, List.map_cons, List.reverse_cons,
        List.append_assoc]
      rfl
  rw [symbols, encode, hrun, symbolsOf]
  simp [State.finish]

/-- The bytes of a text are its own. -/
lemma strict?_encode (s : String) : strict? (encode s) = some s := by
  have hchars : ∀ cs : List Char, chars? (cs.map .char) = some cs := by
    intro cs
    induction cs with
    | nil => rfl
    | cons c cs ih =>
      rw [chars?] at ih ⊢
      rw [List.map_cons, List.mapM_cons, ih]
      rfl
  rw [strict?, symbols_encode, symbolsOf, hchars, Option.map_some, String.ofList_toList]

/-! ## Characters of one byte -/

/-- A character under construction that comes out above 0x7F, whatever bytes go on with it. -/
def State.Wide : State → Prop
  | .idle => True
  | .inside _ bits missing low _ =>
    0x80 ≤ low ∧ (missing ≤ 1 → 2 ≤ bits) ∧ (1 < missing → 2 ≤ bits * 64 + (low - 0x80))

lemma toNat_ofNat_eq_zero_or (n : ℕ) : (Char.ofNat n).toNat = 0 ∨ (Char.ofNat n).toNat = n := by
  rw [Char.ofNat]
  by_cases hvalid : n.isValidChar
  · rw [dif_pos hvalid]
    exact .inr UInt32.toNat_ofNatLT
  · rw [dif_neg hvalid]
    exact .inl rfl

/-- Overlong forms are kept out: no character of several bytes starts narrow. -/
lemma wide_start (b : UInt8) : (start b).2.Wide := by
  unfold start
  dsimp only
  split_ifs <;> simp only [State.Wide] <;> omega

section

variable {c : Char} (hpos : 0 < c.toNat) (hascii : c.toNat < 0x80)

include hpos hascii

lemma byte_of_mem_start {b : UInt8} (h : .char c ∈ (start b).1) : b.toNat = c.toNat := by
  by_cases hb : b.toNat < 0x80
  · have hc : c = Char.ofNat b.toNat := by simpa [start, hb] using h
    have hnat := toNat_ofNat_eq_zero_or b.toNat
    rw [← hc] at hnat
    omega
  · exfalso
    unfold start at h
    dsimp only at h
    rw [if_neg hb] at h
    split_ifs at h <;> simp at h

/-- **One byte** keeps what is under construction wide, so the only narrow character that it can
complete is its own. -/
lemma step_wide {state : State} (hstate : state.Wide) (b : UInt8) :
    (step b state).2.Wide ∧ (.char c ∈ (step b state).1 → b.toNat = c.toNat) := by
  cases state with
  | idle => exact ⟨wide_start b, byte_of_mem_start hpos hascii⟩
  | inside before bits missing low high =>
    -- the next byte completes the character, goes on with it, or ends it as a stray run
    obtain ⟨hlow, hlast, hmore⟩ := hstate
    rw [step]
    split
    · next hrange =>
      split
      · next hend =>
        have hbits := hlast hend
        refine ⟨trivial, fun h => ?_⟩
        have hc : c = Char.ofNat (bits * 64 + (b.toNat - 0x80)) := by simpa using h
        have hnat := toNat_ofNat_eq_zero_or (bits * 64 + (b.toNat - 0x80))
        rw [← hc] at hnat
        omega
      · next hend =>
        have hbits := hmore (by omega)
        refine ⟨?_, fun h => absurd h List.not_mem_nil⟩
        simp only [State.Wide]
        omega
    · refine ⟨wide_start b, fun h => ?_⟩
      have hmem : .char c ∈ (start b).1 := by simpa using h
      exact byte_of_mem_start hpos hascii hmem

/-- **Byte after byte**: a narrow character that has been read is one of the bytes. -/
lemma exists_byte_of_mem_run (bytes : List UInt8) (out : List Symbol) {state : State}
    (hstate : state.Wide) (h : .char c ∈ (run bytes (out, state)).1) :
    .char c ∈ out ∨ ∃ b ∈ bytes, b.toNat = c.toNat := by
  induction bytes generalizing out state with
  | nil => exact .inl h
  | cons b bytes ih =>
    obtain ⟨hnext, hbyte⟩ := step_wide hpos hascii hstate b
    rw [run_cons] at h
    rcases ih _ hnext h with hread | ⟨b', hb', hc⟩
    · rcases List.mem_append.mp hread with hmem | hmem
      · exact .inr ⟨b, List.mem_cons_self, hbyte hmem⟩
      · exact .inl hmem
    · exact .inr ⟨b', List.mem_cons_of_mem _ hb', hc⟩

/-- **A character of one byte is read from its own byte only**, never from the bytes of another
character and never for bytes that encode none. -/
theorem exists_byte_of_mem_lossy {bytes : List UInt8} (h : c ∈ (lossy bytes).toList) :
    ∃ b ∈ bytes, b.toNat = c.toNat := by
  rw [lossy, String.toList_ofList] at h
  obtain ⟨symbol, hsymbol, hc⟩ := List.mem_map.mp h
  cases symbol with
  | stray bytes =>
    have hlarge : c.toNat = 0xFFFD := by rw [← hc]; rfl
    omega
  | char c' =>
    obtain rfl : c' = c := hc
    have hmem : .char c' ∈ (run bytes ([], .idle)).2.finish ++ (run bytes ([], .idle)).1 :=
      List.mem_reverse.mp hsymbol
    rcases List.mem_append.mp hmem with hfinish | hread
    · cases hstate : (run bytes ([], .idle)).2 <;> simp [hstate, State.finish] at hfinish
    · have hidle : State.idle.Wide := trivial
      exact (exists_byte_of_mem_run hpos hascii bytes [] hidle hread).resolve_left
        List.not_mem_nil

end

end ContractConversion.Text.Utf8
