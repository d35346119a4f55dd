import ContractConversion.Proofs.Except
import ContractConversion.Proofs.Text.Digits
import ContractConversion.Proofs.Time.Calendar
import ContractConversion.Time.Instant

/-!
# Instants are read back

`Instant.Valid` are the instants that can be written: their year is in range, and only the last
second of a minute may be a leap second. Such an instant is read back from its written form
(`Instant.parse_format`). Each reader of a part takes exactly what the writer of that part wrote,
and leaves what stands behind it. Nothing but a valid instant is read, from whatever text
(`Instant.valid_of_parse`): its offset from UTC has whole minutes, so a leap second stays one.
-/

namespace ContractConversion.Time.Instant

namespace Reader

open Text (isBlank isDigit_of_mem_toDigits toNat_of_isDigit valueIn valueIn_append
  valueIn_replicate valueIn_toDigits)

/-! ## Numbers -/

/-- The characters are digits and write the number. -/
structure Writes (ds : List Char) (n : ℕ) : Prop where
  ne_nil : ds ≠ []
  digit : ∀ c ∈ ds, c.isDigit = true
  value : valueIn 10 ds = n

lemma toList_padded (width n : ℕ) :
    (padded width n).toList =
      List.replicate (width - (Nat.toDigits 10 n).length) '0' ++ Nat.toDigits 10 n :=
  String.toList_ofList

/-- A padded number is written. -/
lemma writes_padded (width n : ℕ) : Writes (padded width n).toList n := by
  rw [toList_padded]
  refine ⟨fun h => Nat.toDigits_ne_nil (List.append_eq_nil_iff.mp h).2, fun c hc => ?_, ?_⟩
  · rcases List.mem_append.mp hc with hc | hc
    · rw [List.eq_of_mem_replicate hc]
      rfl
    · exact isDigit_of_mem_toDigits hc
  · rw [valueIn_append, valueIn_replicate, ← valueIn, valueIn_toDigits]

/-- A number that is not too large has exactly the given width. -/
lemma length_padded {width n : ℕ} (hwidth : 0 < width) (h : n < 10 ^ width) :
    (padded width n).toList.length = width := by
  have hdigits := (Nat.length_toDigits_le_iff (b := 10) (by decide) hwidth).mpr h
  rw [toList_padded, List.length_append, List.length_replicate]
  omega

section

variable {ds rest : List Char} {n : ℕ}

lemma Writes.exists_cons (h : Writes ds n) : ∃ d tail, ds = d :: tail ∧ d.isDigit = true := by
  cases ds with
  | nil => exact absurd rfl h.ne_nil
  | cons d tail => exact ⟨d, tail, rfl, h.digit d List.mem_cons_self⟩

/-- A digit is neither blank nor a sign. -/
lemma not_of_isDigit {d : Char} (h : d.isDigit = true) :
    isBlank d = false ∧ d ≠ '-' ∧ d ≠ '+' := by
  have hrange := toNat_of_isDigit h
  refine ⟨?_, ?_, ?_⟩
  · simp only [isBlank, Bool.or_eq_false_iff, Bool.and_eq_false_iff, decide_eq_false_iff_not,
      beq_eq_false_iff_ne]
    omega
  · rintro rfl
    exact absurd hrange (by decide)
  · rintro rfl
    exact absurd hrange (by decide)

/-- Nothing blank stands in front of a number. -/
lemma Writes.dropWhile_isBlank (h : Writes ds n) :
    (ds ++ rest).dropWhile isBlank = ds ++ rest := by
  obtain ⟨d, tail, rfl, hd⟩ := h.exists_cons
  rw [List.cons_append, List.dropWhile_cons_of_neg]
  rw [(not_of_isDigit hd).1]
  exact Bool.false_ne_true

/-- A number is read as far as its width and its digits go. -/
lemma number_of_writes (h : Writes ds n) (hn : n < 2 ^ 63) {width : ℕ} (hlength : ds.length ≤ width)
    (hrest : ds.length = width ∨ ∃ c tail, rest = c :: tail ∧ c.isDigit = false) :
    number width (ds ++ rest) = .ok (n, rest) := by
  have hdigits : ((ds ++ rest).take width).takeWhile Char.isDigit = ds := by
    rw [List.take_append, List.take_of_length_le hlength, List.takeWhile_append_of_pos h.digit]
    rcases hrest with hfull | ⟨c, tail, rfl, hc⟩
    · rw [hfull, Nat.sub_self, List.take_zero, List.takeWhile_nil, List.append_nil]
    · cases hspare : width - ds.length with
      | zero => rw [List.take_zero, List.takeWhile_nil, List.append_nil]
      | succ spare =>
        rw [List.take_succ_cons, List.takeWhile_cons_of_neg (by simp [hc]), List.append_nil]
  obtain ⟨d, tail, rfl, -⟩ := h.exists_cons
  have hdrop : (d :: tail ++ rest).drop (d :: tail).length = rest := List.drop_left' rfl
  rw [List.cons_append] at hdigits hdrop ⊢
  unfold number
  rw [hdigits]
  dsimp only
  rw [h.value, Nat.pow_eq, if_pos hn, hdrop]

/-- A field of two digits is read. -/
lemma field_padded {low high : ℕ} (hrange : low ≤ n ∧ n ≤ high) (hhigh : high < 100)
    (rest : List Char) : field 2 low high ((padded 2 n).toList ++ rest) = .ok (n, rest) := by
  have hwrites := writes_padded 2 n
  have hlength : (padded 2 n).toList.length = 2 := length_padded (by decide) (by omega)
  rw [field, hwrites.dropWhile_isBlank,
    number_of_writes hwrites (by omega) (Nat.le_of_eq hlength) (.inl hlength)]
  exact if_pos hrange

end

/-! ## Separators -/

lemma literal_cons {c : Char} (h : isBlank c = false) (rest : List Char) :
    literal c (c :: rest) = .ok rest := by
  rw [literal, List.dropWhile_cons_of_neg (by simp [h])]
  exact if_pos rfl

/-! ## Years -/

lemma number_bind {α : Type} {width n : ℕ} {cs rest : List Char}
    (h : number width cs = .ok (n, rest)) (next : ℕ → List Char → Except InstantFault α) :
    (do let (n, rest) ← number width cs; next n rest) = next n rest := by
  rw [h]
  rfl

lemma year_minus {cs rest : List Char} {n : ℕ} (h : number cs.length cs = .ok (n, rest)) :
    year ('-' :: cs) = year.inRange (-(n : ℤ)) rest := by
  have hcs : ('-' :: cs).dropWhile isBlank = '-' :: cs := List.dropWhile_cons_of_neg (by decide)
  simp only [year, hcs]
  exact number_bind h fun n rest => year.inRange (-(n : ℤ)) rest

lemma year_plus {cs rest : List Char} {n : ℕ} (h : number cs.length cs = .ok (n, rest)) :
    year ('+' :: cs) = year.inRange n rest := by
  have hcs : ('+' :: cs).dropWhile isBlank = '+' :: cs := List.dropWhile_cons_of_neg (by decide)
  simp only [year, hcs]
  exact number_bind h fun n rest => year.inRange n rest

lemma year_digit {d : Char} {cs rest : List Char} {n : ℕ} (hd : d.isDigit = true)
    (h : number 4 (d :: cs) = .ok (n, rest)) : year (d :: cs) = year.inRange n rest := by
  obtain ⟨hblank, hminus, hplus⟩ := not_of_isDigit hd
  rw [year, List.dropWhile_cons_of_neg (by simp [hblank])]
  split
  · next heq => exact absurd (List.cons.inj heq).1 hminus
  · next heq => exact absurd (List.cons.inj heq).1 hplus
  · exact number_bind h fun n rest => year.inRange n rest

/-- A written year is read. -/
lemma year_yearText {y : ℤ} (hy : -2147483648 ≤ y ∧ y < 2147483648) (rest : List Char) :
    year ((yearText y).toList ++ '-' :: rest) = .ok (y, '-' :: rest) := by
  have hrange : year.inRange y ('-' :: rest) = .ok (y, '-' :: rest) := by
    rw [year.inRange, if_pos hy]
  rw [yearText]
  split
  · next hfour =>
    -- a year of four digits has no sign
    have hwrites := writes_padded 4 y.toNat
    have hlength : (padded 4 y.toNat).toList.length = 4 := length_padded (by decide) (by omega)
    have hnumber : number 4 ((padded 4 y.toNat).toList ++ '-' :: rest) =
        .ok (y.toNat, '-' :: rest) :=
      number_of_writes hwrites (by omega) (Nat.le_of_eq hlength) (.inl hlength)
    have hvalue : ((y.toNat : ℕ) : ℤ) = y := Int.toNat_of_nonneg hfour.1
    obtain ⟨d, tail, hcons, hd⟩ := hwrites.exists_cons
    rw [hcons, List.cons_append] at hnumber ⊢
    rw [year_digit hd hnumber, hvalue, hrange]
  · next hsigned =>
    have hnumber : number ((padded 4 y.natAbs).toList ++ '-' :: rest).length
        ((padded 4 y.natAbs).toList ++ '-' :: rest) = .ok (y.natAbs, '-' :: rest) :=
      number_of_writes (writes_padded 4 y.natAbs) (by omega) (by simp) (.inr ⟨'-', rest, rfl, rfl⟩)
    have hminus : "-".toList = ['-'] := rfl
    have hplus : "+".toList = ['+'] := rfl
    rw [String.toList_append, List.append_assoc]
    by_cases hneg : y < 0
    · have hvalue : -((y.natAbs : ℕ) : ℤ) = y := by omega
      rw [if_pos hneg, hminus, List.singleton_append, year_minus hnumber, hvalue, hrange]
    · have hvalue : ((y.natAbs : ℕ) : ℤ) = y := by omega
      rw [if_neg hneg, hplus, List.singleton_append, year_plus hnumber, hvalue, hrange]

/-! ## Fractions of a second -/

/-- Places behind a point are read. -/
lemma fraction_point {ds : List Char} {n places : ℕ} (h : Writes ds n) (hn : n < 2 ^ 63)
    (hlength : ds.length = places) (hplaces : places ≤ 9) (c : Char) (hc : c.isDigit = false)
    (rest : List Char) :
    fraction ('.' :: (ds ++ c :: rest)) = .ok (n * 10 ^ (9 - places), c :: rest) := by
  have hnumber : number 9 (ds ++ c :: rest) = .ok (n, c :: rest) :=
    number_of_writes h hn (by omega) (.inr ⟨c, rest, rfl, hc⟩)
  have hused : (ds ++ c :: rest).length - (c :: rest).length = places := by
    rw [List.length_append, hlength, Nat.add_sub_cancel]
  have hafter : (c :: rest).dropWhile Char.isDigit = c :: rest :=
    List.dropWhile_cons_of_neg (by simp [hc])
  simp only [fraction]
  refine (number_bind hnumber fun n after => Except.ok (n * Nat.pow 10 (9 -
    ((ds ++ c :: rest).length - after.length)), after.dropWhile Char.isDigit)).trans ?_
  rw [hused, hafter, Nat.pow_eq]

/-- The written places of a second are read. -/
lemma fraction_fractionText {nanos : ℕ} (h : nanos < 1000000000) (rest : List Char) :
    fraction ((fractionText nanos).toList ++ 'Z' :: rest) = .ok (nanos, 'Z' :: rest) := by
  have hpoint : ".".toList = ['.'] := rfl
  rw [fractionText]
  split
  · next hzero =>
    rw [hzero, String.toList_empty, List.nil_append, fraction]
    intro tail heq
    exact absurd (List.cons.inj heq).1 (by decide)
  · split
    · next hmillis =>
      have hread := fraction_point (writes_padded 3 (nanos / 1000000)) (by omega)
        (length_padded (by decide) (by omega)) (by decide) 'Z' rfl rest
      have hvalue : nanos / 1000000 * 10 ^ (9 - 3) = nanos := by omega
      rw [String.toList_append, hpoint, List.append_assoc, List.singleton_append, hread, hvalue]
    · split
      · next hmicros =>
        have hread := fraction_point (writes_padded 6 (nanos / 1000)) (by omega)
          (length_padded (by decide) (by omega)) (by decide) 'Z' rfl rest
        have hvalue : nanos / 1000 * 10 ^ (9 - 6) = nanos := by omega
        rw [String.toList_append, hpoint, List.append_assoc, List.singleton_append, hread, hvalue]
      · have hread := fraction_point (writes_padded 9 nanos) (by omega)
          (length_padded (by decide) (by omega)) (by decide) 'Z' rfl rest
        rw [String.toList_append, hpoint, List.append_assoc, List.singleton_append, hread,
          Nat.sub_self, Nat.pow_zero, Nat.mul_one]

end Reader

/-! ## Instants -/

/-- An instant that can be written: its year is in range, and only the last second of a minute may
be a leap second. -/
structure Valid (t : Instant) : Prop where
  nanos_lt : t.nanos < 2000000000
  leap : 1000000000 ≤ t.nanos → t.seconds % 60 = 59
  year : -262143 ≤ t.split.1.year ∧ t.split.1.year ≤ 262142

/-- The parts of the written form. -/
lemma toList_format (t : Instant) :
    t.format.toList =
      (yearText t.split.1.year).toList ++ '-' :: ((padded 2 t.split.1.month).toList ++
        '-' :: ((padded 2 t.split.1.day).toList ++ 'T' :: ((padded 2 (t.split.2 / 3600)).toList ++
          ':' :: ((padded 2 (t.split.2 / 60 % 60)).toList ++ ':' ::
            ((padded 2 t.secondOfMinute).toList ++
              ((fractionText (t.nanos % 1000000000)).toList ++ ['Z'])))))) := by
  have hhyphen : "-".toList = ['-'] := rfl
  have hdivider : "T".toList = ['T'] := rfl
  have hcolon : ":".toList = [':'] := rfl
  have hoffset : "Z".toList = ['Z'] := rfl
  rw [format]
  simp only [String.toList_append, List.append_assoc, hhyphen, hdivider, hcolon, hoffset,
    List.cons_append, List.nil_append]

open Reader Text in
/-- **A valid instant is read back from its written form.** -/
theorem parse_format {t : Instant} (h : t.Valid) : parse t.format = .ok t := by
  obtain ⟨hnanos, hleap, hyear⟩ := h
  have hinstant : hasYear t.split.1.year = true := by simpa [hasYear] using hyear
  have hsplit : t.split = (Date.ofDays (t.seconds.fdiv 86400), (t.seconds.fmod 86400).toNat) := rfl
  have hsecond : t.secondOfMinute = (t.seconds.fmod 60).toNat + t.nanos / 1000000000 := rfl
  have hvalid := Date.isValid_ofDays (t.seconds.fdiv 86400)
  have hdays := Date.toDays_ofDays (t.seconds.fdiv 86400)
  rw [parse, toList_format]
  rw [hsplit] at hyear ⊢
  dsimp only at hyear ⊢
  generalize Date.ofDays (t.seconds.fdiv 86400) = date at hvalid hdays hyear ⊢
  rw [Int.fdiv_eq_ediv_of_nonneg _ (by decide)] at hdays
  rw [Int.fmod_eq_emod_of_nonneg _ (by decide)] at hsecond ⊢
  obtain ⟨hmonth, hday⟩ := Date.range_of_isValid hvalid
  have hhyphen : isBlank '-' = false := rfl
  have hcolon : isBlank ':' = false := rfl
  -- the hour, the minute and the second are in range
  obtain ⟨second, hsecondOfDay⟩ : ∃ second, (t.seconds % 86400).toNat = second := ⟨_, rfl⟩
  have hlast : second < 86400 := by omega
  have hhour : 0 ≤ second / 3600 ∧ second / 3600 ≤ 23 := by omega
  have hminute : 0 ≤ second / 60 % 60 ∧ second / 60 % 60 ≤ 59 := by omega
  have hsixty : 0 ≤ t.secondOfMinute ∧ t.secondOfMinute ≤ 60 := by omega
  have hnanos : t.nanos % 1000000000 < 1000000000 := Nat.mod_lt _ (by decide)
  rw [hsecondOfDay]
  simp only [bind, Except.bind, pure, Except.pure, year_yearText (y := date.year) (by omega),
    literal_cons hhyphen, literal_cons hcolon, field_padded hmonth (by decide),
    field_padded hday (by decide), divider, true_or, if_true, field_padded hhour (by decide),
    field_padded hminute (by decide), field_padded hsixty (by decide),
    fraction_fractionText hnanos]
  have hend : offset (['Z'].dropWhile isBlank) = .ok (0, []) := rfl
  have hdate : (⟨date.year, date.month, date.day⟩ : Date) = date := rfl
  have hyears : hasYear date.year = true := by simpa [hasYear] using hyear
  rw [hend]
  dsimp only
  rw [hdate, hvalid, hdays, hyears, if_neg (by decide), if_neg (by simp)]
  -- the seconds and the nanoseconds add up again, with the leap second back among the latter
  have hleaps : t.secondOfMinute / 60 = t.nanos / 1000000000 := by omega
  have hminutes : (second : ℤ) = t.seconds % 86400 := by omega
  have hseconds : t.seconds / 86400 * 86400 + ((second / 3600 * 3600 + second / 60 % 60 * 60 +
      (t.secondOfMinute - t.nanos / 1000000000) : ℕ) : ℤ) - 0 = t.seconds := by omega
  have hplaces : t.nanos % 1000000000 + t.nanos / 1000000000 * 1000000000 = t.nanos := by omega
  rw [hleaps, hseconds, hplaces]
  exact if_pos hinstant

/-! ## What is read -/

namespace Reader

/-- A number that is read has at most so many places, and as many as it takes up. -/
lemma number_ok {width n : ℕ} {cs rest : List Char} (h : number width cs = .ok (n, rest)) :
    n < 10 ^ (cs.length - rest.length) ∧ cs.length - rest.length ≤ width := by
  obtain ⟨ds, hds⟩ : ∃ ds, (cs.take width).takeWhile Char.isDigit = ds := ⟨_, rfl⟩
  have hdigits : ∀ c ∈ ds, c.isDigit = true := by
    rw [← hds]
    exact List.all_eq_true.mp List.all_takeWhile
  have hprefix : ds.length ≤ width ∧ ds.length ≤ cs.length := by
    have hle := (List.takeWhile_prefix (l := cs.take width) Char.isDigit).length_le
    rw [hds, List.length_take] at hle
    omega
  unfold number at h
  rw [hds] at h
  dsimp only at h
  split at h
  · cases h
  · cases h
  · split at h
    · obtain ⟨rfl, rfl⟩ := Prod.mk.inj (Except.ok.inj h)
      have hlength : cs.length - (cs.drop ds.length).length = ds.length := by
        rw [List.length_drop]
        omega
      rw [hlength]
      exact ⟨Text.valueIn_lt hdigits, hprefix.1⟩
    · cases h

/-- The places of a second that are read are less than a second. -/
lemma fraction_lt {cs rest : List Char} {nanos : ℕ} (h : fraction cs = .ok (nanos, rest)) :
    nanos < 10 ^ 9 := by
  unfold fraction at h
  split at h
  · next cs =>
    obtain ⟨⟨n, after⟩, hnumber, h⟩ := bind_eq_ok.mp h
    obtain ⟨rfl, -⟩ := Prod.mk.inj (Except.ok.inj h)
    obtain ⟨hlt, hle⟩ := number_ok hnumber
    have hplaces : cs.length - after.length + (9 - (cs.length - after.length)) = 9 := by omega
    calc n * 10 ^ (9 - (cs.length - after.length))
        < 10 ^ (cs.length - after.length) * 10 ^ (9 - (cs.length - after.length)) :=
          Nat.mul_lt_mul_of_pos_right hlt (Nat.pow_pos (by decide))
      _ = 10 ^ 9 := by rw [← Nat.pow_add, hplaces]
  · obtain ⟨rfl, -⟩ := Prod.mk.inj (Except.ok.inj h)
    decide

/-- A field that is read is in its range. -/
lemma field_range {width low high n : ℕ} {cs rest : List Char}
    (h : field width low high cs = .ok (n, rest)) : low ≤ n ∧ n ≤ high := by
  obtain ⟨⟨m, after⟩, -, h⟩ := bind_eq_ok.mp h
  dsimp only at h
  split at h
  · next hrange =>
    obtain ⟨rfl, -⟩ := Prod.mk.inj (Except.ok.inj h)
    exact hrange
  · exact absurd h throw_ne_ok

/-- A distance from UTC has whole minutes. -/
lemma offsetValue_mod {cs rest : List Char} {n : ℕ} (h : offsetValue cs = .ok (n, rest)) :
    n % 60 = 0 := by
  unfold offsetValue at h
  dsimp only at h
  split at h
  · exact absurd h throw_ne_ok
  · split at h
    · split at h
      · obtain ⟨⟨hours, after⟩, -, h⟩ := bind_eq_ok.mp h
        dsimp only at h
        split at h
        · exact absurd h throw_ne_ok
        · split at h
          · split at h
            · split at h
              · obtain ⟨rfl, -⟩ := Prod.mk.inj (Except.ok.inj h)
                omega
              · exact absurd h throw_ne_ok
            · exact absurd h throw_ne_ok
          · exact absurd h throw_ne_ok
      · obtain ⟨_, hfault, _⟩ := bind_eq_ok.mp h
        exact absurd hfault throw_ne_ok
    · obtain ⟨_, hfault, _⟩ := bind_eq_ok.mp h
      exact absurd hfault throw_ne_ok

lemma offset_mod {cs rest : List Char} {shift : ℤ} (h : offset cs = .ok (shift, rest)) :
    shift % 60 = 0 := by
  unfold offset at h
  split at h
  · cases h
  · cases h
    rfl
  · cases h
    rfl
  · obtain ⟨⟨n, after⟩, hn, h⟩ := bind_eq_ok.mp h
    cases h
    have := offsetValue_mod hn
    omega
  · obtain ⟨⟨n, after⟩, hn, h⟩ := bind_eq_ok.mp h
    cases h
    have := offsetValue_mod hn
    omega
  · obtain ⟨⟨n, after⟩, hn, h⟩ := bind_eq_ok.mp h
    cases h
    have := offsetValue_mod hn
    omega
  · split at h <;> cases h
    rfl
  · cases h

end Reader

open Reader in
/-- What is read: whole minutes in UTC, and a second that is 60 in a leap second. -/
lemma exists_of_parse {s : String} {t : Instant} (h : parse s = .ok t) :
    ∃ (days shift : ℤ) (minutes second nanos : ℕ), shift % 60 = 0 ∧ second ≤ 60 ∧ nanos < 10 ^ 9 ∧
      t = ⟨days * 86400 + ((minutes * 60 + (second - second / 60) : ℕ) : ℤ) - shift,
        nanos + second / 60 * 1000000000⟩ ∧ hasYear t.split.1.year = true := by
  obtain ⟨⟨y, cs⟩, -, h⟩ := bind_eq_ok.mp h
  obtain ⟨cs, -, h⟩ := bind_eq_ok.mp h
  obtain ⟨⟨month, cs⟩, -, h⟩ := bind_eq_ok.mp h
  obtain ⟨cs, -, h⟩ := bind_eq_ok.mp h
  obtain ⟨⟨day, cs⟩, -, h⟩ := bind_eq_ok.mp h
  obtain ⟨cs, -, h⟩ := bind_eq_ok.mp h
  obtain ⟨⟨hour, cs⟩, -, h⟩ := bind_eq_ok.mp h
  obtain ⟨cs, -, h⟩ := bind_eq_ok.mp h
  obtain ⟨⟨minute, cs⟩, -, h⟩ := bind_eq_ok.mp h
  obtain ⟨cs, -, h⟩ := bind_eq_ok.mp h
  obtain ⟨⟨second, cs⟩, hsecond, h⟩ := bind_eq_ok.mp h
  obtain ⟨⟨nanos, cs⟩, hnanos, h⟩ := bind_eq_ok.mp h
  obtain ⟨⟨shift, cs⟩, hshift, h⟩ := bind_eq_ok.mp h
  dsimp only at h
  split at h
  · exact absurd h throw_ne_ok
  · split at h
    · exact absurd h throw_ne_ok
    · split at h
      · next hyear =>
        obtain rfl := Except.ok.inj h
        have hminutes : hour * 3600 + minute * 60 = (hour * 60 + minute) * 60 := by omega
        refine ⟨Date.toDays ⟨y, month, day⟩, shift, hour * 60 + minute, second, nanos,
          offset_mod hshift, (field_range hsecond).2, fraction_lt hnanos, ?_, hyear⟩
        rw [hminutes]
      · exact absurd h throw_ne_ok

/-- **An instant that is read can be written.** -/
theorem valid_of_parse {s : String} {t : Instant} (h : parse s = .ok t) : t.Valid := by
  obtain ⟨days, shift, minutes, second, nanos, hshift, hsecond, hnanos, rfl, hyear⟩ :=
    exists_of_parse h
  simp only [hasYear, Bool.decide_and, Bool.and_eq_true, decide_eq_true_eq] at hyear
  refine ⟨?_, fun hleap => ?_, hyear⟩
  · dsimp only
    omega
  · -- only the second 60 adds a billion nanoseconds
    dsimp only at hleap ⊢
    obtain rfl : second = 60 := by omega
    omega

/-- In UTC this is in the year behind the last one. -/
example : parse "+262142-12-31T23:59:59-01:00" = .error .impossible := by decide +kernel

end ContractConversion.Time.Instant
