import Reckoner.Proofs.Decimal.Binary
import Reckoner.Proofs.Decimal.Shortest
import Reckoner.Proofs.Json.RoundTrip

/-!
Theory of the numbers of records. Whatever a double or a whole number is written as can be read as
a value. A whole number that fits a word is read back, and so are all doubles that stand apart: the
zeros, the infinities and the one that is no number. Of the others only those are read back which
the reader finds again from their digits.
-/

namespace Reckoner.Json

open Reckoner.Decimal

structure Significant (digits : List Char) : Prop where
  filled : digits ≠ []
  unpadded : digits.head? ≠ some '0'
  digit : ∀ c ∈ digits, isDecimalDigit c = true

theorem significant_digitList {value : Nat} (positive : 0 < value) :
    Significant (digitList value) where
  filled := digitList_ne_nil value
  unpadded := head_digitList_ne_zero positive
  digit := fun _ member => isDecimalDigit_of_mem_digitList member

section
variable {digits : List Char} (significant : Significant digits) (negative : Bool) (exponent : Int)
include significant

theorem isProper_positional {trailing : List Char} (trails : trailing.all isDecimalDigit = true) :
    isProper (.positional negative trailing digits exponent) = true := by
  obtain ⟨first, rest, rfl⟩ := List.exists_cons_of_ne_nil significant.filled
  have other : first ≠ '0' := by simpa using significant.unpadded
  have digit := significant.digit
  unfold Numeral.positional
  extract_lets lead
  rw [isProper_iff]
  split
  · refine ⟨Or.inr ⟨by simp, by simpa using other⟩, ?_, List.all_eq_true.mp trails⟩
    intro c member
    rcases List.mem_append.mp member with inside | zero
    · exact digit c inside
    · exact isDecimalDigit_of_mem_zeros zero
  · split
    · rename_i inside
      obtain ⟨count, more⟩ := Nat.exists_eq_succ_of_ne_zero (n := lead.toNat) (by omega)
      refine ⟨Or.inr ?_, ?_, ?_⟩
      · simpa [more] using other
      · exact fun c member => digit c (List.mem_of_mem_take member)
      · exact fun c member => digit c (List.mem_of_mem_drop member)
    · refine ⟨Or.inl rfl, by simp; rfl, ?_⟩
      intro c member
      rcases List.mem_append.mp member with zero | inside
      · exact isDecimalDigit_of_mem_zeros zero
      · exact digit c inside

theorem isProper_scientific : isProper (.scientific negative digits exponent) = true := by
  obtain ⟨first, rest, rfl⟩ := List.exists_cons_of_ne_nil significant.filled
  have other : first ≠ '0' := by simpa using significant.unpadded
  have digit := significant.digit
  rw [isProper_iff]
  refine ⟨Or.inr ⟨by simp [Numeral.scientific], by simpa [Numeral.scientific] using other⟩, ?_, ?_⟩
  · exact fun c member => digit c (List.mem_of_mem_take member)
  · exact fun c member => digit c (List.mem_of_mem_drop member)

end

theorem trailing_digits (layout : Layout) : layout.trailing.all isDecimalDigit = true := by
  unfold Layout.trailing
  split <;> rfl

theorem isProper_numeral? {layout : Layout} {value : Float} {numeral : Numeral}
    (written : layout.numeral? value = some numeral) : isProper numeral = true := by
  have trails := trailing_digits layout
  unfold Layout.numeral? at written
  split at written
  · cases written
    exact (isProper_iff _).mpr ⟨Or.inl rfl, by simp; rfl, List.all_eq_true.mp trails⟩
  · rename_i binary size
    cases written
    have significant := significant_digitList (shortest_pos (significand_pos size) layout.tie)
    unfold Layout.finite
    extract_lets decimal digits
    split
    · exact isProper_positional significant _ _ trails
    · exact isProper_scientific significant _ _
  · contradiction

theorem writable_ofFloat (value : Float) : (Value.ofFloat value).isWritable := by
  unfold Value.ofFloat
  split
  · exact isProper_numeral? ‹_›
  · rfl

theorem writable_ofNat (value : Nat) : (Value.ofNat value).isWritable := by
  refine (isProper_iff _).mpr ⟨?_, fun _ => isDecimalDigit_of_mem_digitList, by simp⟩
  rcases Nat.eq_zero_or_pos value with rfl | positive
  · exact Or.inl rfl
  · exact Or.inr ⟨digitList_ne_nil value, head_digitList_ne_zero positive⟩

@[simp] theorem depth_ofFloat (value : Float) : (Value.ofFloat value).depth = 0 := by
  unfold Value.ofFloat
  split <;> rfl

@[simp] theorem depth_ofNat (value : Nat) : (Value.ofNat value).depth = 0 :=
  rfl

theorem number?_ofNat {value : Nat} (fits : Word64.fits value = true) :
    number? ⟨false, digitList value, [], none⟩ = some (.natural value) := by
  simp [number?, digitsValue_digitList, fits]

theorem word?_ofNat {value : Nat} (fits : Word64.fits value = true) :
    (Value.ofNat value).word? = some value := by
  simp [Value.ofNat, Value.word?, number?_ofNat fits]

theorem isNumber_ofNat {value : Nat} (fits : Word64.fits value = true) :
    (Value.ofNat value).allSound isNumber = true := by
  simp [Value.ofNat, Value.allSound, isNumber, number?_ofNat fits]

theorem isNumber_ofFloat {value read : Float} (back : (Value.ofFloat value).float? = some read) :
    (Value.ofFloat value).allSound isNumber = true := by
  unfold Value.ofFloat at back ⊢
  split at back
  · rename_i numeral _
    cases read : number? numeral with
    | none => simp [Value.float?, scalar?, read] at back
    | some number => simp [Value.allSound, isNumber, read]
  · rfl

def scalarOf (value : Float) : Scalar :=
  (scalar? (.ofFloat value)).getD (.number value)

theorem scalar?_ofFloat {value read : Float} (back : (Value.ofFloat value).float? = some read) :
    scalar? (.ofFloat value) = some (scalarOf value) ∧
      (scalarOf value).toFloat? = some read := by
  obtain ⟨scalar, found, converted⟩ := Option.bind_eq_some_iff.mp back
  have same : scalarOf value = scalar := by rw [scalarOf, found, Option.getD_some]
  exact ⟨same ▸ found, same ▸ converted⟩

def ReadsBack (value : Float) : Prop :=
  (read? (Value.ofFloat value).toText).bind Value.float? = some value

theorem number?_zero (negative : Bool) :
    number? ⟨negative, ['0'], ['0'], none⟩ = some (.real (if negative then -0.0 else 0.0)) := by
  have scaled : scaleDown 0.0 1 = 0.0 := by
    rw [scaleDown]
    decide
  have size : sizeOf? ⟨negative, ['0'], ['0'], none⟩ = some (scaleDown 0.0 1) := rfl
  simp [number?, size, scaled]

theorem float?_ofFloat {value : Float}
    (finite : ∀ binary, Decimal.sizeOf value = .finite binary → ReadsBack value) :
    (Value.ofFloat value).float? = some value := by
  cases size : Decimal.sizeOf value with
  | zero =>
      have plus : layout.numeral? 0.0 = some ⟨false, ['0'], ['0'], none⟩ := rfl
      have minus : layout.numeral? (-0.0) = some ⟨true, ['0'], ['0'], none⟩ := rfl
      rcases eq_zero size with rfl | rfl
      · simp [Value.ofFloat, plus, Value.float?, scalar?, number?_zero, Number.toFloat,
          Scalar.toFloat?]
      · simp [Value.ofFloat, minus, Value.float?, scalar?, number?_zero, Number.toFloat,
          Scalar.toFloat?]
  | finite binary =>
      have back := finite binary size
      rw [ReadsBack, read?_toText (writable_ofFloat value)] at back
      exact back
  | infinite => rcases eq_infinite size with rfl | rfl <;> decide
  | notANumber =>
      rw [eq_notANumber size]
      decide

theorem numeral?_half : layout.numeral? 0.5 = some ⟨false, ['0'], ['5'], none⟩ := by
  have found : (List.range' 1 17).findSome? (Binary.withDigits? .even ⟨2 ^ 52, -53, true⟩) =
      some ⟨5, -1⟩ := by decide
  have shortest : Binary.shortest layout.tie ⟨2 ^ 52, -53, true⟩ = ⟨5, -1⟩ := by
    rw [Binary.shortest, layout, found, Option.getD_some, Digits.strip]
    decide
  have size : Decimal.sizeOf 0.5 = .finite ⟨2 ^ 52, -53, true⟩ := rfl
  have positive : isNegative 0.5 = false := by decide
  rw [Layout.numeral?, size]
  simp only [Layout.finite, shortest, positive]
  decide

theorem readsBack_half : ReadsBack 0.5 := by
  have scaled : scaleDown (ofWord 5) 1 = 0.5 := by
    rw [scaleDown]
    decide
  have size : sizeOf? ⟨false, ['0'], ['5'], none⟩ = some (scaleDown (ofWord 5) 1) := rfl
  rw [ReadsBack, read?_toText (writable_ofFloat _)]
  simp [Value.ofFloat, numeral?_half, Value.float?, scalar?, number?, size, scaled,
    Number.toFloat, Scalar.toFloat?]

end Reckoner.Json
