import Mathlib.Data.Nat.Cast.Order.Basic
import Mathlib.Algebra.Order.Ring.Rat
import Mathlib.Order.WithBot

/-! Numbers of the source as indexes of arrays. -/

namespace N8n

inductive JsNumber where
  | finite (value : ℚ)
  | infinity (isNegative : Bool)
  | nan
  deriving DecidableEq

namespace JsNumber

instance (n : Nat) : OfNat JsNumber n := ⟨.finite n⟩

/-- The place of an array that the number names, if it is a whole one. -/
def place? : JsNumber → Option Nat
  | .finite value => if value.den = 1 ∧ 0 ≤ value.num then some value.num.toNat else none
  | _ => none

/-- `items[number]`. -/
def read {α : Type*} (items : List α) (number : JsNumber) : Option α :=
  number.place?.bind (fun place => items[place]?)

/-- `number >= length`. -/
def atLeast (number : JsNumber) (length : Nat) : Bool :=
  match number with
  | .finite value => decide ((length : ℚ) ≤ value)
  | .infinity isNegative => !isNegative
  | .nan => false

variable {number : JsNumber}

theorem atLeast_of_place {place length : Nat} (isPlace : number.place? = some place)
    : number.atLeast length = true ↔ length ≤ place := by
  cases number with
  | finite value =>
      simp only [place?] at isPlace
      split at isPlace
      · next whole =>
          have same : value = (place : ℚ) := by
            calc value = (value.num : ℚ) := (Rat.coe_int_num_of_den_eq_one whole.1).symm
              _ = ((value.num.toNat : Int) : ℚ) := by rw [Int.toNat_of_nonneg whole.2]
              _ = (value.num.toNat : ℚ) := Int.cast_natCast _
              _ = (place : ℚ) := by rw [Option.some.inj isPlace]
          simp only [atLeast, decide_eq_true_eq, same]
          exact Nat.cast_le
      · contradiction
  | _ => contradiction

variable {α : Type*} {items : List α}

/-- Below the length of an array, only a number that names no place reads nothing. -/
theorem read_isSome_iff (below : number.atLeast items.length = false)
    : (read items number).isSome ↔ number.place?.isSome := by
  cases isPlace : number.place? with
  | none => simp [read, isPlace]
  | some place =>
      have inside : ¬items.length ≤ place := by
        rw [← atLeast_of_place isPlace, below]
        simp
      simpa [read, isPlace] using inside

theorem below_of_read {item : α} (found : read items number = some item)
    : number.atLeast items.length = false := by
  obtain ⟨place, isPlace, isItem⟩ := Option.bind_eq_some_iff.mp found
  rw [← Bool.not_eq_true, atLeast_of_place isPlace, not_le]
  exact (List.getElem?_eq_some_iff.mp isItem).1

end JsNumber

/-- The numbers that compare with each other: all but NaN. -/
abbrev OrderedNumber := WithBot (WithTop ℚ)

namespace OrderedNumber

def ofNat (index : Nat) : OrderedNumber := ((index : ℚ) : WithTop ℚ)

/-- `number + delta`. -/
def shift (delta : Int) (number : OrderedNumber) : OrderedNumber :=
  number.map (WithTop.map (fun value => value + delta))

variable {left right : Nat}

@[simp] theorem ofNat_inj : ofNat left = ofNat right ↔ left = right := by
  simp [ofNat]

@[simp] theorem ofNat_le : ofNat left ≤ ofNat right ↔ left ≤ right := by
  simp [ofNat]

variable {index : Nat}

@[simp] theorem shift_ofNat_one : shift 1 (ofNat index) = ofNat (index + 1) := by
  simp [ofNat, shift]

@[simp] theorem shift_ofNat_neg_one
    : shift (-1) (ofNat (index + 1)) = ofNat index := by
  have cancels : ((index + 1 : Nat) : ℚ) + ((-1 : Int) : ℚ) = index := by simp
  exact congrArg (fun value : ℚ => ((value : WithTop ℚ) : OrderedNumber)) cancels

end OrderedNumber

end N8n
