import Mathlib.Data.List.Basic
import Mathlib.Tactic.IntervalCases
import Interlink.Json.Number
import Interlink.Proofs.Number.Double

/-!
# Numbers that are written are proper

A number that is written has the form that the grammar of JSON asks for
(`Number.Proper`): there are digits before the point, no zero in front of other
digits, and digits in an exponent. The numbers of whole numbers and of doubles
have it (`Number.proper_ofInt`, `Number.proper_ofDouble`). For a double that
hangs on its shortest decimal, which is never zero: the interval of a double
other than zero does not reach it.

A whole number is read back as it is (`Number.int?_ofInt`), and as a double if it
has no more than sixty-four bits (`Number.isSome_double?_ofInt`). Of doubles that
is not so in general, since their reading is quick rather than exact.
-/

namespace Interlink

/-! ## Digits -/

theorem digitsOf_ne_nil (n : Nat) : digitsOf n ≠ [] := Nat.toDigits_ne_nil

theorem isDigit_of_mem_digitsOf {n : Nat} {c : Char} (h : c ∈ digitsOf n) :
    c.isDigit = true :=
  Nat.isDigit_of_mem_toDigits (by decide) (by decide) h

/-- The digits of a number other than zero do not start with a zero. -/
theorem head?_digitsOf {n : Nat} (h : 0 < n) : (digitsOf n).head? ≠ some '0' := by
  induction n using Nat.strongRecOn with
  | ind n ih =>
    unfold digitsOf
    by_cases hsmall : n < 10
    · rw [Nat.toDigits_of_lt_base hsmall]
      interval_cases n <;> decide
    · rw [Nat.toDigits_of_base_le (by decide) (by omega),
        List.head?_append_of_ne_nil _ Nat.toDigits_ne_nil]
      exact ih (n / 10) (by omega) (by omega)

/-! ## The shortest decimal is not zero -/

namespace Double

variable {d : Double} {g : Grid}

theorem significand_pos (h : d.isZero = false) : 0 < d.significand := by
  unfold isZero at h
  unfold significand
  split
  next hexponent =>
    rw [hexponent] at h
    simp at h
    omega
  next => omega

/-- The interval of a double other than zero does not reach zero. -/
theorem covers_zero (h : 0 < d.significand) (hg : 0 < g.quarter) :
    d.covers g 0 = false := by
  have hlow : 0 < d.lowQuarters * g.quarter := by
    refine Nat.mul_pos ?_ hg
    unfold lowQuarters
    split <;> omega
  unfold covers
  simp only [Nat.zero_mul]
  split <;> simp only [decide_eq_false_iff_not] <;> omega

/-- So the neighbour that is taken is not zero. -/
theorem neighbour?_pos (h : 0 < d.significand) (hg : 0 < g.quarter) {tie : Tie} {x : Nat}
    (hx : d.neighbour? tie g = some x) : 0 < x := by
  have hcovered : ∀ below, d.covers g below = true → 0 < below := by
    intro below hcovers
    refine Nat.pos_of_ne_zero fun hzero => ?_
    rw [hzero, covers_zero h hg] at hcovers
    cases hcovers
  unfold neighbour? at hx
  grind

theorem stripZeros_pos {fuel coefficient : Nat} {exponent : Int} (h : 0 < coefficient) :
    0 < (Decimal.stripZeros fuel coefficient exponent).coefficient := by
  induction fuel generalizing coefficient exponent with
  | zero => exact h
  | succ fuel ih =>
    unfold Decimal.stripZeros
    split
    next hzero => exact ih (by omega)
    next => exact h

/-- The digits of a shortest decimal do not start with a zero, or are that zero
alone. -/
theorem shortest_pos (h : d.isZero = false) (tie : Tie) :
    0 < (d.shortest tie).coefficient ∨ d.shortest tie = ⟨0, 0⟩ := by
  unfold shortest
  dsimp only
  generalize hfound : List.findSome? _ _ = found
  cases found with
  | none => exact .inr rfl
  | some decimal =>
    obtain ⟨count, -, hcandidate⟩ := List.exists_of_findSome?_eq_some hfound
    obtain ⟨coefficient, hneighbour, rfl⟩ := Option.map_eq_some_iff.mp hcandidate
    have hquarter : 0 < (d.grid (d.leadingPower + 1 - count)).quarter :=
      Nat.mul_pos (Nat.pow_pos (by decide)) (Nat.pow_pos (by decide))
    exact .inl (stripZeros_pos (neighbour?_pos (significand_pos h) hquarter hneighbour))

end Double

namespace Json

/-- **Digits spell the number they are those of.** -/
theorem digitsValue_digitsOf (n : Nat) : digitsValue (digitsOf n) = n := by
  have hfold : digitsValue (digitsOf n) = Nat.ofDigitChars 10 (Nat.toDigits 10 n) 0 := by
    unfold digitsValue digitsOf Nat.ofDigitChars digitValue
    simp only [Nat.mul_comm]
  rw [hfold, Nat.ofDigitChars_ten_toDigits]

namespace Number

/-- **A number is proper** if it has the form that the grammar of JSON gives
numbers. -/
structure Proper (n : Number) : Prop where
  /-- There are digits before the point. -/
  nonempty : n.whole ≠ []
  /-- They are digits. -/
  whole : ∀ c ∈ n.whole, c.isDigit = true
  /-- A zero in front stands alone. -/
  lead : n.whole.head? = some '0' → n.whole = ['0']
  /-- Behind the point there are digits. -/
  fraction : ∀ c ∈ n.fraction, c.isDigit = true
  /-- An exponent has digits. -/
  exponent : ∀ below digits, n.exponent = some (below, digits) →
    digits ≠ [] ∧ ∀ c ∈ digits, c.isDigit = true

/-! ## Whole numbers -/

theorem proper_ofInt (n : Int) : (ofInt n).Proper where
  nonempty := digitsOf_ne_nil _
  whole _ hc := isDigit_of_mem_digitsOf hc
  lead hhead := by
    have hzero : n.natAbs = 0 := by
      by_contra hne
      exact head?_digitsOf (Nat.pos_of_ne_zero hne) hhead
    show digitsOf n.natAbs = ['0']
    rw [hzero]
    rfl
  fraction _ hc := absurd hc List.not_mem_nil
  exponent _ _ h := by cases h

/-- **A whole number is read as it was written.** -/
theorem int?_ofInt (n : Int) : (ofInt n).int? = some n := by
  have hmagnitude : digitsValue (ofInt n).whole = n.natAbs := digitsValue_digitsOf _
  show (if decide (n < 0) = true then _ else _) = _
  rw [hmagnitude]
  by_cases hn : n < 0
  · rw [if_pos (decide_eq_true hn), if_neg (by omega), Option.some.injEq]
    omega
  · rw [if_neg (by simpa using hn), Option.some.injEq]
    omega

/-- Digits only add to the number in front of them. -/
theorem le_foldl_digits (cs : List Char) (word : Nat) :
    word ≤ cs.foldl (fun n c => n * 10 + digitValue c) word := by
  induction cs generalizing word with
  | nil => exact Nat.le_refl _
  | cons c cs ih =>
    calc word ≤ word * 10 + digitValue c := by omega
      _ ≤ cs.foldl (fun n c => n * 10 + digitValue c) (word * 10 + digitValue c) := ih _

/-- Digits whose number fits the word are all gathered. -/
theorem gatherWhole_eq {cs : List Char} {word : Nat}
    (h : cs.foldl (fun n c => n * 10 + digitValue c) word < 0x10000000000000000) :
    gatherWhole cs word = (cs.foldl (fun n c => n * 10 + digitValue c) word, 0) := by
  induction cs generalizing word with
  | nil => rfl
  | cons c cs ih =>
    have hnext : word * 10 + digitValue c < 0x10000000000000000 :=
      Nat.lt_of_le_of_lt (le_foldl_digits cs _) h
    rw [gatherWhole, if_pos hnext, ih h, List.foldl_cons]

/-- A double of moderate size is not lost when it is not shifted. -/
theorem isSome_shift?_zero {d : Double} (h : d.exponent ≤ 1100) :
    (shift? d 0).isSome = true := by
  have hfinite := Double.isFinite_scaleUp_one h
  unfold shift?
  rw [if_neg (by decide), if_pos (by decide), Int.toNat_zero]
  dsimp only
  rw [if_pos hfinite]
  rfl

/-- **A whole number of sixty-four bits can be read as a double.** -/
theorem isSome_double?_ofInt {n : Int} (h : n.natAbs < 2 ^ 64) :
    (ofInt n).double?.isSome = true := by
  have hspelt : (digitsOf n.natAbs).foldl (fun n c => n * 10 + digitValue c) 0 = n.natAbs :=
    digitsValue_digitsOf n.natAbs
  have hgathered : gatherWhole (digitsOf n.natAbs) 0 = (n.natAbs, 0) := by
    rw [gatherWhole_eq (by rw [hspelt]; exact h), hspelt]
  simp only [double?, ofInt, hgathered, gatherFraction, exponentValue]
  split
  next => rfl
  next hpos =>
    have hlength : n.natAbs.log2 ≤ Nat.log2 1 + 63 := by
      have hlog := (Nat.log2_lt hpos).mpr h
      omega
    exact isSome_shift?_zero
      ((Double.exponent_ofRatio_le Nat.one_pos hlength (by decide) _).trans (by decide))

/-! ## Doubles -/

/-- The digits of a number other than zero make a proper number wherever the
point stands among them, but in front of all. -/
theorem proper_split {coefficient places : Nat} (h : 0 < coefficient) (hplaces : 0 < places)
    (negative : Bool) :
    (⟨negative, (digitsOf coefficient).take places, (digitsOf coefficient).drop places,
      none⟩ : Number).Proper where
  nonempty := by
    dsimp only
    rw [Ne, List.take_eq_nil_iff, not_or]
    exact ⟨Nat.pos_iff_ne_zero.mp hplaces, digitsOf_ne_nil _⟩
  whole _ hc := isDigit_of_mem_digitsOf (List.mem_of_mem_take hc)
  lead := by
    dsimp only
    rw [List.head?_take, if_neg (Nat.pos_iff_ne_zero.mp hplaces)]
    exact fun hzero => absurd hzero (head?_digitsOf h)
  fraction _ hc := isDigit_of_mem_digitsOf (List.mem_of_mem_drop hc)
  exponent _ _ h := by cases h

theorem isDigit_of_mem_zeros {n : Nat} {c : Char} (h : c ∈ List.replicate n '0') :
    c.isDigit = true := by
  rw [List.eq_of_mem_replicate h]
  rfl

/-- A decimal other than zero is a proper number in positional form. -/
theorem proper_positional {decimal : Decimal} (h : 0 < decimal.coefficient)
    (negative : Bool) :
    (⟨negative, decimal.positional.1, decimal.positional.2, none⟩ : Number).Proper := by
  unfold Decimal.positional
  dsimp only
  split
  next =>
    -- zeros behind the digits
    have hne := digitsOf_ne_nil decimal.coefficient
    exact {
      nonempty := List.append_ne_nil_of_left_ne_nil hne _
      whole := fun _ hc =>
        (List.mem_append.mp hc).elim isDigit_of_mem_digitsOf isDigit_of_mem_zeros
      lead := by
        dsimp only
        rw [List.head?_append_of_ne_nil _ hne]
        exact fun hzero => absurd hzero (head?_digitsOf h)
      fraction := fun _ hc => absurd hc List.not_mem_nil
      exponent := fun _ _ h => by cases h }
  next =>
    split
    next hplaces => exact proper_split h (by omega) negative
    next =>
      -- zeros in front of the digits
      exact {
        nonempty := List.cons_ne_nil _ _
        whole := by simp
        lead := fun _ => rfl
        fraction := fun _ hc =>
          (List.mem_append.mp hc).elim isDigit_of_mem_zeros isDigit_of_mem_digitsOf
        exponent := fun _ _ h => by cases h }

/-- **A double is written as a proper number.** -/
theorem proper_ofDouble (d : Double) : (ofDouble d).Proper := by
  have hzero : (⟨d.negative, ['0'], ['0'], none⟩ : Number).Proper :=
    ⟨by simp, by simp, fun _ => rfl, by simp, by simp⟩
  unfold ofDouble
  split
  next => exact hzero
  next hd =>
    dsimp only
    rcases Double.shortest_pos (by simpa using hd) .toEven with hpos | hnone
    · split
      next =>
        -- a fraction that is left out is written as a zero
        have hproper := proper_positional hpos d.negative
        refine { hproper with fraction := ?_ }
        dsimp only
        split
        next => simp
        next => exact hproper.fraction
      next =>
        refine { proper_split hpos Nat.one_pos d.negative with exponent := ?_ }
        intro below digits h
        cases h
        exact ⟨digitsOf_ne_nil _, fun c hc => isDigit_of_mem_digitsOf hc⟩
    · rw [hnone]
      exact hzero

end Number

end Json

end Interlink
