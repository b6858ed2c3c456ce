import FusedGemm.Json.Reader

/-!
# Numbers are read as they were written

A number is *proper* if it has digits before the point, of which a zero in front stands alone, and
nothing but digits after it (`Numeral.Proper`).  The reader gives a proper number back, with what
follows it (`Json.readNumeral_text`).  What is written for naturals and for finite floats is
proper (`Numeral.proper_ofNat`, `Numeral.proper_of_ofFloat?`).
-/

namespace FusedGemm

/-! ### Digits -/

/-- The digits of a natural stand for it. -/
theorem Numeral.digitsValue_toDigits (n : Nat) : digitsValue (Nat.toDigits 10 n) = n :=
  Nat.ofDigitChars_ten_toDigits

theorem isDigit_of_mem_toDigits {n : Nat} {c : Char} (h : c ∈ Nat.toDigits 10 n) :
    c.isDigit = true :=
  Nat.isDigit_of_mem_toDigits (by decide) (by decide) h

/-- Only the digits of zero start with a zero. -/
theorem head?_toDigits_ne {n : Nat} (h : n ≠ 0) : (Nat.toDigits 10 n).head? ≠ some '0' := by
  induction n using Nat.strongRecOn with
  | _ n ih =>
    rw [Nat.toDigits_eq_if (by decide)]
    split
    · have hdigit : ∀ d, d < 10 → d ≠ 0 → [d.digitChar].head? ≠ some '0' := by decide
      exact hdigit n ‹_› h
    · -- the last digit is not the first one
      have hrest := ih (n / 10) (by omega) (by omega)
      have hne : Nat.toDigits 10 (n / 10) ≠ [] := Nat.toDigits_ne_nil
      obtain ⟨c, cs, hcs⟩ := List.exists_cons_of_ne_nil hne
      rw [hcs] at hrest ⊢
      exact hrest

/-! ### The text of a number -/

namespace Numeral

/-- The characters of a fraction, with the point in front of it. -/
def fractionText (ds : List Char) : List Char := if ds.isEmpty then [] else '.' :: ds

/-- The characters of an exponent. -/
def exponentText : Option Int → List Char
  | none => []
  | some e => 'e' :: (if e < 0 then '-' else '+') :: Nat.toDigits 10 e.natAbs

theorem toList_text (n : Numeral) : n.text.toList =
    (if n.negative then ['-'] else []) ++ (n.whole ++ (fractionText n.fraction ++
      exponentText n.exponent)) := by
  have hfraction : (if n.fraction.isEmpty then "" else "." ++ String.ofList n.fraction).toList =
      fractionText n.fraction := by
    unfold fractionText
    split
    · rfl
    · simp
  have hexponent : ∀ e : Int, ("e" ++ (if e < 0 then "-" else "+") ++ e.natAbs.repr).toList =
      exponentText (some e) := by
    intro e
    unfold exponentText
    rw [String.toList_append, String.toList_append, Nat.toList_repr]
    dsimp only
    by_cases he : e < 0
    · rw [if_pos he, if_pos he]
      rfl
    · rw [if_neg he, if_neg he]
      rfl
  have hsigned : ∀ s : String, (signed n.negative s).toList =
      (if n.negative then ['-'] else []) ++ s.toList := by
    intro s
    unfold signed
    split
    · simp
    · rfl
  unfold text
  cases hvalue : n.exponent with
  | none =>
    simp only [hsigned, String.toList_append, String.toList_ofList, hfraction]
    simp [exponentText]
  | some e =>
    simp only [hsigned, String.toList_append, String.toList_ofList, hfraction]
    rw [← hexponent]
    simp [String.toList_append]

/-- There are digits before the point, of which a zero in front stands alone, and nothing but digits
after it. -/
structure Proper (n : Numeral) : Prop where
  whole_ne_nil : n.whole ≠ []
  whole_isDigit : ∀ c ∈ n.whole, c.isDigit = true
  whole_lead : n.whole.head? = some '0' → n.whole.length = 1
  fraction_isDigit : ∀ c ∈ n.fraction, c.isDigit = true

end Numeral

/-! ### Reading a number -/

namespace Json

/-- What follows a value in a text: nothing, a comma or the end of a line. -/
def Follows (rest : List Char) : Prop := ∀ c ∈ rest.head?, c = ',' ∨ c = '\n'

/-- The text does not start with a digit. -/
def NoDigit (rest : List Char) : Prop := ∀ c ∈ rest.head?, c.isDigit = false

variable {rest : List Char}

theorem Follows.noDigit (h : Follows rest) : NoDigit rest := by
  intro c hc
  rcases h c hc with rfl | rfl <;> rfl

/-- Digits are read up to what is none. -/
theorem readDigits_append {ds : List Char} (hne : ds ≠ []) (hds : ∀ c ∈ ds, c.isDigit = true)
    (hrest : NoDigit rest) : readDigits (ds ++ rest) = some (ds, rest) := by
  have hstop : rest.takeWhile Char.isDigit = [] ∧ rest.dropWhile Char.isDigit = rest := by
    cases rest with
    | nil => exact ⟨rfl, rfl⟩
    | cons c cs =>
      have hc : c.isDigit = false := hrest c rfl
      exact ⟨List.takeWhile_cons_of_neg (by simp [hc]), List.dropWhile_cons_of_neg (by simp [hc])⟩
  unfold readDigits
  rw [List.takeWhile_append_of_pos hds, List.dropWhile_append_of_pos hds, hstop.1, hstop.2,
    List.append_nil]
  simp [hne]

theorem readWhole_append {n : Numeral} (h : n.Proper) (hrest : NoDigit rest) :
    readWhole (n.whole ++ rest) = some (n.whole, rest) := by
  have hlead : ¬ (n.whole.head? = some '0' ∧ n.whole.length ≠ 1) := fun hzero =>
    hzero.2 (h.whole_lead hzero.1)
  unfold readWhole
  rw [readDigits_append h.whole_ne_nil h.whole_isDigit hrest]
  exact if_neg hlead

/-- An exponent is read up to what follows the number. -/
theorem readExponent_append (e : Option Int) (hrest : Follows rest) :
    readExponent (Numeral.exponentText e ++ rest) = some (e, rest) := by
  cases e with
  | none =>
    cases rest with
    | nil => rfl
    | cons c cs =>
      have hc : ¬ (c = 'e' ∨ c = 'E') := by rcases hrest c rfl with rfl | rfl <;> decide
      exact if_neg hc
  | some e =>
    have hdigits : readDigits (Nat.toDigits 10 e.natAbs ++ rest) =
        some (Nat.toDigits 10 e.natAbs, rest) :=
      readDigits_append Nat.toDigits_ne_nil (fun _ => isDigit_of_mem_toDigits) hrest.noDigit
    by_cases hneg : e < 0
    · simp only [Numeral.exponentText, hneg, if_true, List.cons_append, readExponent, readSign,
        true_or, hdigits, Option.bind_eq_bind, Option.bind_some, Numeral.digitsValue_toDigits]
      exact congrArg (fun i => some (some i, rest)) (by omega)
    · simp only [Numeral.exponentText, hneg, if_false, List.cons_append, readExponent, readSign,
        true_or, if_true, hdigits, Option.bind_eq_bind, Option.bind_some,
        Numeral.digitsValue_toDigits]
      exact congrArg (fun i => some (some i, rest)) (by simp; omega)

/-- An exponent or what follows the number does not start with a digit or a point. -/
theorem head?_exponentText_append (e : Option Int) (hrest : Follows rest) :
    ∀ c ∈ (Numeral.exponentText e ++ rest).head?, c.isDigit = false ∧ c ≠ '.' := by
  intro c hc
  cases e with
  | none =>
    rcases hrest c hc with rfl | rfl <;> decide
  | some e =>
    obtain rfl : 'e' = c := Option.some.inj hc
    decide

theorem readFraction_append {n : Numeral} (h : n.Proper) {tail : List Char}
    (htail : ∀ c ∈ tail.head?, c.isDigit = false ∧ c ≠ '.') :
    readFraction (Numeral.fractionText n.fraction ++ tail) = some (n.fraction, tail) := by
  cases hfraction : n.fraction with
  | nil =>
    cases tail with
    | nil => rfl
    | cons c cs =>
      have hc : c ≠ '.' := (htail c rfl).2
      show readFraction (c :: cs) = _
      unfold readFraction
      split
      · next heq => exact absurd (List.cons.inj heq).1 hc
      · rfl
  | cons d ds =>
    rw [← hfraction]
    have htext : Numeral.fractionText n.fraction = '.' :: n.fraction := by
      unfold Numeral.fractionText
      rw [if_neg (by simp [hfraction])]
    rw [htext]
    exact readDigits_append (by simp [hfraction]) h.fraction_isDigit fun c hc => (htail c hc).1

/-- What is read after the sign of a number. -/
def readUnsigned (negative : Bool) (cs : List Char) : Option (Numeral × List Char) := do
  let (whole, rest) ← readWhole cs
  let (fraction, rest) ← readFraction rest
  let (exponent, rest) ← readExponent rest
  return (⟨negative, whole, fraction, exponent⟩, rest)

theorem readNumeral_of_ne {c : Char} (hc : c ≠ '-') (cs : List Char) :
    readNumeral (c :: cs) = readUnsigned false (c :: cs) := by
  unfold readNumeral
  split
  next negative rest heq =>
    split at heq
    · next hminus => exact absurd (List.cons.inj hminus).1 hc
    · obtain ⟨rfl, rfl⟩ := Prod.mk.inj heq
      rfl

theorem readUnsigned_append {n : Numeral} (h : n.Proper) (hrest : Follows rest) :
    readUnsigned n.negative (n.whole ++ (Numeral.fractionText n.fraction ++
      (Numeral.exponentText n.exponent ++ rest))) = some (n, rest) := by
  have htail := head?_exponentText_append n.exponent hrest
  have hwhole : NoDigit (Numeral.fractionText n.fraction ++
      (Numeral.exponentText n.exponent ++ rest)) := by
    intro c hc
    unfold Numeral.fractionText at hc
    split at hc
    · exact (htail c hc).1
    · obtain rfl : '.' = c := Option.some.inj hc
      rfl
  unfold readUnsigned
  simp only [readWhole_append h hwhole, readFraction_append h htail,
    readExponent_append n.exponent hrest, Option.bind_eq_bind, Option.bind_some]
  rfl

/-- A proper number starts with a minus or a digit. -/
theorem head?_text {n : Numeral} (h : n.Proper) (rest : List Char) :
    ∃ c cs, n.text.toList ++ rest = c :: cs ∧ (c = '-' ∨ c.isDigit = true) := by
  obtain ⟨d, ds, hds⟩ := List.exists_cons_of_ne_nil h.whole_ne_nil
  have hd : d.isDigit = true := h.whole_isDigit d (by simp [hds])
  rw [Numeral.toList_text, hds]
  cases n.negative with
  | true => exact ⟨'-', _, rfl, Or.inl rfl⟩
  | false => exact ⟨d, _, rfl, Or.inr hd⟩

/-- **A proper number is read as it was written.** -/
theorem readNumeral_text {n : Numeral} (h : n.Proper) (hrest : Follows rest) :
    readNumeral (n.text.toList ++ rest) = some (n, rest) := by
  have hread := readUnsigned_append h hrest
  rw [Numeral.toList_text, List.append_assoc, List.append_assoc, List.append_assoc]
  cases hsign : n.negative with
  | true =>
    rw [hsign] at hread
    exact hread
  | false =>
    obtain ⟨d, ds, hds⟩ := List.exists_cons_of_ne_nil h.whole_ne_nil
    have hd : d ≠ '-' := by
      rintro rfl
      have hdigit := h.whole_isDigit '-' (by simp [hds])
      exact absurd hdigit (by decide)
    rw [hsign, hds] at hread
    rw [hds]
    exact (readNumeral_of_ne hd _).trans hread

end Json

/-! ### Written numbers -/

namespace Numeral

/-- What is written for a natural is proper. -/
theorem proper_ofNat (n : Nat) : (ofNat n).Proper := by
  have hwhole : (ofNat n).whole = Nat.toDigits 10 n := Nat.toList_repr
  refine ⟨hwhole ▸ Nat.toDigits_ne_nil, hwhole ▸ fun c => isDigit_of_mem_toDigits, fun hhead => ?_,
    fun c hc => nomatch hc⟩
  rw [hwhole] at hhead ⊢
  obtain rfl : n = 0 := Decidable.byContradiction fun hn => head?_toDigits_ne hn hhead
  rfl

/-- A natural below the limit is read back. -/
theorem toWord?_ofNat {n : Nat} (h : n < AddressSpace.limit) : (ofNat n).toWord? = some n := by
  have hvalue : digitsValue n.repr.toList = n := by rw [Nat.toList_repr, digitsValue_toDigits]
  show AddressSpace.check (digitsValue n.repr.toList) = some n
  rw [hvalue]
  exact AddressSpace.check_eq_some_iff.mpr ⟨h, rfl⟩

end Numeral

namespace Decimal

variable {tie : Tie} {lowHalf : Bool} {significand : Nat} {exponent grid : Int} {d : Decimal}

/-- No grid offers zero for a positive number: zero is farther from it than half of its spacing. -/
theorem digits_pos_of_onGrid (hs : 0 < significand)
    (h : onGrid tie lowHalf significand exponent grid = some d) : 0 < d.digits := by
  unfold onGrid at h
  extract_lets ulp unit value below downDistance upDistance inside down up pickUp at h
  have hulp : 0 < ulp := Nat.mul_pos (Nat.two_pow_pos _) (Nat.pow_pos (by decide))
  split at h
  · obtain rfl := Option.some.inj h
    exact Nat.succ_pos _
  · split at h
    · next hdown =>
      obtain rfl := Option.some.inj h
      refine Nat.pos_of_ne_zero fun hzero : value / unit = 0 => ?_
      have hdistance : ulp ≤ downDistance := by
        have hvalue : downDistance = value := by
          have := Nat.div_add_mod value unit
          rw [hzero, Nat.mul_zero, Nat.zero_add] at this
          exact this
        rw [hvalue]
        exact Nat.le_mul_of_pos_left _ hs
      have hfactor : (if lowHalf then 4 else 2) * downDistance ≤ ulp := by
        simp only [down, inside, Bool.or_eq_true, Bool.and_eq_true, decide_eq_true_eq,
          beq_iff_eq] at hdown
        omega
      split at hfactor <;> omega
    · cases h

/-- The shortest decimal of a positive number is not zero. -/
theorem digits_pos_shortest (tie : Tie) (hs : 0 < significand) (exponent : Int) :
    0 < (shortest tie significand exponent).digits := by
  unfold shortest
  extract_lets lowHalf top found
  cases hfound : found with
  | none => exact Nat.mul_pos hs (Nat.two_pow_pos _)
  | some d =>
    obtain ⟨n, -, hn⟩ := List.exists_of_findSome?_eq_some hfound
    exact digits_pos_of_onGrid hs hn

end Decimal

namespace Numeral

/-- What is written for a positive decimal is proper. -/
theorem proper_ofDecimal (negative : Bool) {d : Decimal} (hd : 0 < d.digits) :
    (ofDecimal negative d).Proper := by
  have hdigits : d.digits.repr.toList = Nat.toDigits 10 d.digits := Nat.toList_repr
  have hisDigit : ∀ c ∈ Nat.toDigits 10 d.digits, c.isDigit = true := fun c =>
    isDigit_of_mem_toDigits
  have hlead := head?_toDigits_ne (Nat.pos_iff_ne_zero.mp hd)
  obtain ⟨c, cs, hcs⟩ := List.exists_cons_of_ne_nil (Nat.toDigits_ne_nil (n := d.digits) (b := 10))
  unfold ofDecimal
  rw [hdigits]
  extract_lets digits magnitude places padded
  split
  · -- one digit before the point
    refine ⟨?_, fun c hc => hisDigit c (List.mem_of_mem_take hc), fun _ => ?_,
      fun c hc => hisDigit c (List.mem_of_mem_drop hc)⟩
    all_goals simp [digits, hcs]
  · split
    · -- an integer
      refine ⟨?_, fun c hc => ?_, fun hhead => absurd hhead ?_, ?_⟩
      · simp [digits, hcs]
      · rcases List.mem_append.mp hc with hc | hc
        · exact hisDigit c hc
        · rw [(List.mem_replicate.mp hc).2]
          rfl
      · rw [hcs] at hlead
        simpa [digits, hcs] using hlead
      · simp
    · -- a point before the last places
      have hpadded : ∀ c ∈ padded, c.isDigit = true := by
        intro c hc
        rcases List.mem_append.mp hc with hc | hc
        · rw [(List.mem_replicate.mp hc).2]
          rfl
        · exact hisDigit c hc
      have hlength : padded.length = places + 1 - digits.length + digits.length := by
        simp [padded]
      refine ⟨?_, fun c hc => hpadded c (List.mem_of_mem_take hc), fun hhead => ?_,
        fun c hc => hpadded c (List.mem_of_mem_drop hc)⟩
      · refine List.ne_nil_of_length_pos ?_
        rw [List.length_take]
        omega
      · rw [List.length_take]
        -- with more than one digit before the point there are no zeros in front
        refine Decidable.byContradiction fun hlong => hlead ?_
        have hnone : places + 1 - digits.length = 0 := by omega
        have heq : padded = digits := by simp [padded, hnone]
        rw [heq] at hhead
        rw [← hhead]
        refine (List.head?_take.trans (if_neg ?_)).symm
        omega

/-- What is written for a finite float is proper. -/
theorem proper_of_ofFloat? {x : Float} {n : Numeral} (h : ofFloat? x = some n) : n.Proper := by
  unfold ofFloat? at h
  split at h
  · cases h
  · cases h
  · obtain rfl := Option.some.inj h
    exact ⟨by simp, by simp, by simp, by simp⟩
  · next significand exponent hzero _ =>
    obtain rfl := Option.some.inj h
    exact proper_ofDecimal _
      (Decimal.digits_pos_shortest .toEven (Nat.pos_of_ne_zero hzero) exponent)

end Numeral

end FusedGemm
