import Mathlib.Algebra.Group.Nat.Defs
import Workflow.Instant.Text

/-!
# Instants are read as they were written

Each part of the text of an instant is a run of digits of its own, which ends before something that
is no digit.  Such a run is read as its number whatever follows it (`readNat?_append`), and the
number of the last digits of a number that has no more is the number itself (`ofDigits_digits`).
The reader goes through the text part by part, so the law of the whole is the laws of the parts one
after another (`readChars?_chars`).
-/

namespace Workflow.Instant

/-! ## Runs of digits -/

/-- Whether a text does not go on with a digit. -/
def EndsRun (rest : List Char) : Prop := ∀ c ∈ rest.head?, c.isDigit = false

/-- A text that begins with something else than a digit. -/
theorem endsRun_cons {c : Char} (h : c.isDigit = false) (rest : List Char) :
    EndsRun (c :: rest) := by
  intro c' hc'
  obtain rfl : c = c' := by simpa using hc'
  exact h

/-- The number of digits is that of the standard library. -/
theorem ofDigits_eq (ds : List Char) : ofDigits ds = Nat.ofDigitChars 10 ds 0 := by
  simp [ofDigits, Nat.ofDigitChars_eq_foldl, Nat.mul_comm]

@[simp]
theorem length_digits (width n : Nat) : (digits width n).length = width := by
  induction width generalizing n with
  | zero => rfl
  | succ width ih => simp [digits, ih]

/-- The last digits of a number are digits. -/
theorem isDigit_of_mem_digits {width n : Nat} {c : Char} (h : c ∈ digits width n) :
    c.isDigit = true := by
  induction width generalizing n with
  | zero => cases h
  | succ width ih =>
    rcases List.mem_append.mp h with h | h
    · exact ih h
    · rw [List.mem_singleton.mp h, Nat.isDigit_digitChar]
      simpa using Nat.mod_lt n (by decide)

/-- A number is that of its last digits, if it has no more. -/
theorem ofDigits_digits {width n : Nat} (h : n < 10 ^ width) : ofDigits (digits width n) = n := by
  rw [ofDigits_eq]
  induction width generalizing n with
  | zero =>
    obtain rfl : n = 0 := by simpa using h
    rfl
  | succ width ih =>
    have hdiv : n / 10 < 10 ^ width := by
      rw [Nat.pow_succ] at h
      omega
    have hlast : Nat.ofDigitChars 10 [Nat.digitChar (n % 10)] (n / 10) = 10 * (n / 10) + n % 10 :=
      Nat.ofDigitChars_cons_digitChar_of_lt_ten (Nat.mod_lt n (by decide))
    rw [digits, Nat.ofDigitChars_append, ih hdiv, hlast, Nat.div_add_mod]

/-- A run of digits that is not too long is read to its end. -/
theorem spanDigits_append {most : Nat} {ds rest : List Char}
    (hdigits : ∀ c ∈ ds, c.isDigit = true) (hlength : ds.length ≤ most) (hrest : EndsRun rest) :
    spanDigits most (ds ++ rest) = (ds, rest) := by
  induction ds generalizing most with
  | nil =>
    cases most with
    | zero => rfl
    | succ most => cases rest with
      | nil => rfl
      | cons c rest =>
        have hc : c.isDigit = false := hrest c rfl
        simp [spanDigits, hc]
  | cons d ds ih =>
    obtain ⟨most, rfl⟩ : ∃ m, most = m + 1 :=
      Nat.exists_eq_succ_of_ne_zero fun h => by simp [h] at hlength
    have hd : d.isDigit = true := hdigits d (List.mem_cons_self ..)
    have hds := ih (fun c hc => hdigits c (List.mem_cons_of_mem _ hc)) (by simpa using hlength)
    simp [spanDigits, hd, hds]

/-- A run of digits is read as its number. -/
theorem readNat?_append {most : Nat} {ds rest : List Char} (hne : ds ≠ [])
    (hdigits : ∀ c ∈ ds, c.isDigit = true) (hlength : ds.length ≤ most) (hrest : EndsRun rest) :
    readNat? most (ds ++ rest) = some (ofDigits ds, rest) := by
  unfold readNat?
  rw [spanDigits_append hdigits hlength hrest]
  split
  · next heq => cases heq; exact absurd rfl hne
  · next heq => cases heq; rfl

/-- There are no blanks in front of a digit. -/
theorem trimStart_of_isDigit {c : Char} (h : c.isDigit = true) (cs : List Char) :
    Text.trimStart (c :: cs) = c :: cs := by
  have hrange : 48 ≤ c.toNat ∧ c.toNat ≤ 57 := by
    simpa [Char.isDigit, UInt32.le_iff_toNat_le] using h
  have hblank : Text.isBlank c = false := by
    simp [Text.isBlank]
    omega
  simp [Text.trimStart, hblank]

/-- Digits of a number begin with one. -/
theorem digits_eq_cons (width n : Nat) :
    ∃ c cs, digits (width + 1) n = c :: cs ∧ c.isDigit = true := by
  cases hds : digits (width + 1) n with
  | nil =>
    have hlength := length_digits (width + 1) n
    rw [hds] at hlength
    cases hlength
  | cons c cs => exact ⟨c, cs, rfl, isDigit_of_mem_digits (by rw [hds]; exact .head _)⟩

/-- A number of a few digits is read as it was written. -/
theorem readNat?_digits {width n : Nat} (h : n < 10 ^ (width + 1)) {rest : List Char}
    (hrest : EndsRun rest) :
    readNat? (width + 1) (digits (width + 1) n ++ rest) = some (n, rest) := by
  have hne : digits (width + 1) n ≠ [] := by
    obtain ⟨c, cs, hcons, -⟩ := digits_eq_cons width n
    rw [hcons]
    exact List.cons_ne_nil c cs
  rw [readNat?_append hne (fun _ => isDigit_of_mem_digits) (by simp) hrest, ofDigits_digits h]

/-! ## The parts of the text -/

/-- A number of two digits is read as it was written. -/
theorem readPart?_digits {n : Nat} (h : n < 100) {rest : List Char} (hrest : EndsRun rest) :
    readPart? (digits 2 n ++ rest) = some (n, rest) := by
  have hblank : Text.trimStart (digits 2 n ++ rest) = digits 2 n ++ rest := by
    obtain ⟨c, cs, hcons, hc⟩ := digits_eq_cons 1 n
    rw [hcons]
    exact trimStart_of_isDigit hc (cs ++ rest)
  unfold readPart?
  rw [hblank, readNat?_digits h hrest]

/-- The number of a year with a sign is read as it was written. -/
theorem readNat?_signed (n : Nat) {rest : List Char} (hrest : EndsRun rest) :
    let ds := List.replicate (4 - (Nat.toDigits 10 n).length) '0' ++ Nat.toDigits 10 n
    readNat? (ds ++ rest).length (ds ++ rest) = some (n, rest) := by
  intro ds
  have hdigits : ∀ c ∈ ds, c.isDigit = true := by
    intro c hc
    rcases List.mem_append.mp hc with hc | hc
    · rw [(List.mem_replicate.mp hc).2]
      rfl
    · exact Nat.isDigit_of_mem_toDigits (by decide) (by decide) hc
  have hne : ds ≠ [] := List.append_ne_nil_of_right_ne_nil _
    (List.ne_nil_of_length_pos Nat.length_toDigits_pos)
  have hnumber : ofDigits ds = n := by
    rw [ofDigits_eq, Nat.ofDigitChars_append, Nat.ofDigitChars_replicate_zero]
    exact Nat.ofDigitChars_ten_toDigits
  rw [readNat?_append hne hdigits (by simp) hrest, hnumber]

/-- A year is read as it was written. -/
theorem readYear?_yearChars (year : Int) {rest : List Char} (hrest : EndsRun rest) :
    readYear? (yearChars year ++ rest) = some (year, rest) := by
  unfold yearChars
  split
  · next hfour =>
    obtain ⟨n, rfl⟩ := Int.eq_ofNat_of_zero_le hfour.1
    have hread : readNat? 4 (digits 4 n ++ rest) = some (n, rest) :=
      readNat?_digits (by omega) hrest
    -- Four digits begin with no sign.
    obtain ⟨c, cs, hcons, hc⟩ := digits_eq_cons 3 n
    rw [hcons] at hread
    rw [Int.toNat_natCast, hcons]
    unfold readYear?
    rw [List.cons_append, trimStart_of_isDigit hc]
    split
    · next heq => cases heq; cases hc
    · next heq => cases heq; cases hc
    · rw [← List.cons_append, hread]
      rfl
  · next hmore =>
    have hread := readNat?_signed year.natAbs hrest
    have hminus : ∀ cs, readYear? ('-' :: cs) =
        (readNat? cs.length cs).map fun r => (-(r.1 : Int), r.2) := fun _ => rfl
    have hplus : ∀ cs, readYear? ('+' :: cs) =
        (readNat? cs.length cs).map fun r => ((r.1 : Int), r.2) := fun _ => rfl
    dsimp only at hread ⊢
    rw [List.cons_append, List.cons_append]
    split
    · have hsign : -(year.natAbs : Int) = year := by omega
      rw [hminus, hread]
      exact congrArg (fun year => some (year, rest)) hsign
    · have hsign : (year.natAbs : Int) = year := by omega
      rw [hplus, hread]
      exact congrArg (fun year => some (year, rest)) hsign

/-- A separator is read. -/
theorem readMark?_cons {mark : Char} (h : Text.isBlank mark = false) (rest : List Char) :
    readMark? mark (mark :: rest) = some rest := by
  simp [readMark?, Text.trimStart, h]

/-- A fraction of a second is read as it was written. -/
theorem readFraction?_fractionChars {nano : Nat} (h : nano < 1000000000) (rest : List Char) :
    readFraction? (fractionChars nano ++ 'Z' :: rest) = some (nano, 'Z' :: rest) := by
  have hZ : EndsRun ('Z' :: rest) := endsRun_cons rfl rest
  -- A group of digits counts the more the less digits it has.
  have hdigits : ∀ {width n : Nat}, width + 1 ≤ 9 → n < 10 ^ (width + 1) →
      readFraction? ('.' :: digits (width + 1) n ++ 'Z' :: rest) =
        some (n * 10 ^ (9 - (width + 1)), 'Z' :: rest) := by
    intro width n hwidth hn
    have hspan : spanDigits 9 (digits (width + 1) n ++ 'Z' :: rest) =
        (digits (width + 1) n, 'Z' :: rest) :=
      spanDigits_append (fun _ => isDigit_of_mem_digits) (by simpa using hwidth) hZ
    obtain ⟨c, cs, hcons, -⟩ := digits_eq_cons width n
    have hlength := length_digits (width + 1) n
    have hnumber := ofDigits_digits hn
    rw [hcons] at hlength hnumber
    simp only [readFraction?, List.cons_append, hspan]
    simp [hcons, hlength, hnumber, Char.isDigit]
  unfold fractionChars
  split
  · next hzero => rw [hzero]; rfl
  · split
    · next hmilli =>
      rw [hdigits (by decide) (by omega)]
      simp
      omega
    · split
      · next hmicro =>
        rw [hdigits (by decide) (by omega)]
        simp
        omega
      · rw [hdigits (by decide) (by omega)]
        simp

/-! ## The whole text -/

/-- What follows the seconds. -/
theorem endsRun_fractionChars (nano : Nat) (rest : List Char) :
    EndsRun (fractionChars nano ++ 'Z' :: rest) := by
  unfold fractionChars
  split
  · exact endsRun_cons rfl _
  · split
    · exact endsRun_cons rfl _
    · split <;> exact endsRun_cons rfl _

/-- Months are numbered up to twelve, and their days up to thirty-one. -/
theorem month_and_day_lt {year : Int} {month day : Nat} (hday : 1 ≤ day)
    (hdays : day ≤ daysInMonth year month) : month < 100 ∧ day < 100 := by
  unfold daysInMonth at hdays
  split at hdays
  case h_4 => omega
  all_goals (try split at hdays) <;> omega

/-- The characters of an instant are read as that instant. -/
theorem readChars?_chars (t : Instant) : readChars? t.chars = some t := by
  have hcivil := t.civil
  simp only [isCivil, Bool.and_eq_true, decide_eq_true_eq] at hcivil
  obtain ⟨⟨⟨⟨⟨⟨⟨-, -⟩, hday⟩, hdays⟩, hhour⟩, hminute⟩, hsecond⟩, hnano⟩ := hcivil
  obtain ⟨hmonth, hday'⟩ := month_and_day_lt hday hdays
  have hhour' : t.hour < 100 := by omega
  have hminute' : t.minute < 100 := by omega
  have hsecond' : t.second < 100 := by omega
  -- What follows each run of digits ends it, and no separator is a blank.
  have hdash : ∀ cs, EndsRun ('-' :: cs) := endsRun_cons rfl
  have hT : ∀ cs, EndsRun ('T' :: cs) := endsRun_cons rfl
  have hcolon : ∀ cs, EndsRun (':' :: cs) := endsRun_cons rfl
  have hparts : t.chars = yearChars t.year ++ ('-' :: (digits 2 t.month ++ ('-' ::
      (digits 2 t.day ++ ('T' :: (digits 2 t.hour ++ (':' :: (digits 2 t.minute ++ (':' ::
      (digits 2 t.second ++ (fractionChars t.nano ++ ['Z']))))))))))) := by
    simp only [chars, List.append_assoc, List.cons_append]
  rw [hparts]
  unfold readChars?
  refine Option.bind_eq_some_iff.mpr ⟨_, readYear?_yearChars t.year (hdash _), ?_⟩
  refine Option.bind_eq_some_iff.mpr ⟨_, readMark?_cons rfl _, ?_⟩
  refine Option.bind_eq_some_iff.mpr ⟨_, readPart?_digits hmonth (hdash _), ?_⟩
  refine Option.bind_eq_some_iff.mpr ⟨_, readMark?_cons rfl _, ?_⟩
  refine Option.bind_eq_some_iff.mpr ⟨_, readPart?_digits hday' (hT _), ?_⟩
  refine Option.bind_eq_some_iff.mpr ⟨_, rfl, ?_⟩
  refine Option.bind_eq_some_iff.mpr ⟨_, readPart?_digits hhour' (hcolon _), ?_⟩
  refine Option.bind_eq_some_iff.mpr ⟨_, readMark?_cons rfl _, ?_⟩
  refine Option.bind_eq_some_iff.mpr ⟨_, readPart?_digits hminute' (hcolon _), ?_⟩
  refine Option.bind_eq_some_iff.mpr ⟨_, readMark?_cons rfl _, ?_⟩
  refine Option.bind_eq_some_iff.mpr
    ⟨_, readPart?_digits hsecond' (endsRun_fractionChars t.nano []), ?_⟩
  refine Option.bind_eq_some_iff.mpr ⟨_, readFraction?_fractionChars hnano [], ?_⟩
  refine Option.bind_eq_some_iff.mpr ⟨(0, []), rfl, ?_⟩
  -- Nothing is left, and the instant of these fields is the one written.
  show (do let t ← of? t.year t.month t.day t.hour t.minute t.second t.nano; ofLocal? t 0) = some t
  rw [of?_fields]
  rfl

/-- The text of an instant is read as that instant. -/
theorem read?_render (t : Instant) : read? t.render = some t := by
  unfold read? render
  rw [String.toList_ofList, readChars?_chars]

end Workflow.Instant
