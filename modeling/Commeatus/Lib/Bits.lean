import Mathlib.Algebra.Ring.Nat
import Mathlib.Data.List.Induction

/-!
The leading bits of numbers and machine words.

A number of a fixed width is read as its bits, the most significant one first.
A number that is spelled by digits has the bits of its digits one after the
other. A word that is cut off by the mask of its first bits keeps these and
nothing else: two words are cut off to the same word exactly when they start
with the same bits.
-/

namespace Commeatus.Lib

/-- The bits of a number of the given width, the most significant one first. -/
def bitsOf (width n : Nat) : List Bool := (List.range width).map fun i => n.testBit (width - 1 - i)

variable {width high low n i : Nat}

@[simp] theorem length_bitsOf : (bitsOf width n).length = width := by simp [bitsOf]

theorem getElem?_bitsOf (inside : i < width) :
    (bitsOf width n)[i]? = some (n.testBit (width - 1 - i)) := by
  simp [bitsOf, inside]

/-- Only the lowest bits of a number are read. -/
theorem bitsOf_mod (width n : Nat) : bitsOf width (n % 2 ^ width) = bitsOf width n := by
  apply List.map_congr_left
  intro i member
  have inside := List.mem_range.mp member
  have below : width - 1 - i < width := by omega
  rw [Nat.testBit_mod_two_pow, decide_eq_true below, Bool.true_and]

/-- A digit behind a number. -/
theorem bitsOf_digit {digit : Nat} (fits : digit < 2 ^ low) (n : Nat) :
    bitsOf (high + low) (n * 2 ^ low + digit) = bitsOf high n ++ bitsOf low digit := by
  apply List.ext_getElem?
  intro i
  rw [Nat.mul_comm]
  rcases Nat.lt_or_ge i high with front | behind
  · have above : ¬ high + low - 1 - i < low := by omega
    have place : high + low - 1 - i - low = high - 1 - i := by omega
    rw [getElem?_bitsOf (by omega), List.getElem?_append_left (by simpa using front),
      getElem?_bitsOf front,
      Nat.testBit_two_pow_mul_add _ fits, if_neg above, place]
  rcases Nat.lt_or_ge i (high + low) with inside | outside
  · have below : high + low - 1 - i < low := by omega
    have place : high + low - 1 - i = low - 1 - (i - high) := by omega
    rw [getElem?_bitsOf inside, List.getElem?_append_right (by simpa using behind), length_bitsOf,
      getElem?_bitsOf (by omega), Nat.testBit_two_pow_mul_add _ fits, if_pos below, place]
  · rw [List.getElem?_eq_none (by simpa using outside),
      List.getElem?_eq_none (by simpa using outside)]

/-- The number that digits spell has their bits. -/
theorem bitsOf_foldl {α : Type} {value : α → Nat} (fits : ∀ digit, value digit < 2 ^ width)
    (digits : List α) :
    bitsOf (width * digits.length) (digits.foldl (fun n digit => n * 2 ^ width + value digit) 0) =
      digits.flatMap fun digit => bitsOf width (value digit) := by
  induction digits using List.reverseRecOn with
  | nil => rfl
  | append_singleton digits digit ih =>
      have size : width * (digits ++ [digit]).length = width * digits.length + width := by
        rw [List.length_append, List.length_singleton, Nat.mul_succ]
      rw [List.foldl_append, List.foldl_cons, List.foldl_nil, size, bitsOf_digit (fits digit), ih,
        List.flatMap_append]
      simp

/-! ### Words -/

variable {w p : Nat} {x y : BitVec w}

theorem bitsOf_ofNat (w n : Nat) : bitsOf w (BitVec.ofNat w n).toNat = bitsOf w n := by
  rw [BitVec.toNat_ofNat, bitsOf_mod]

theorem getElem?_bitsOf_toNat (inside : i < w) : (bitsOf w x.toNat)[i]? = some (x.getMsbD i) := by
  rw [getElem?_bitsOf inside, BitVec.getMsbD_eq_getLsbD, decide_eq_true inside, Bool.true_and,
    BitVec.testBit_toNat]

/-- The word whose first bits are set. -/
def leadingMask (w p : Nat) : BitVec w := BitVec.allOnes w <<< (w - p)

@[simp] theorem leadingMask_zero (w : Nat) : leadingMask w 0 = 0 := by
  simp [leadingMask]

theorem getMsbD_leadingMask (fits : p ≤ w) (i : Nat) :
    (leadingMask w p).getMsbD i = decide (i < p) := by
  have same : i + (w - p) < w ↔ i < p := by omega
  rw [leadingMask, BitVec.getMsbD_shiftLeft, BitVec.getMsbD_allOnes, decide_eq_decide]
  exact same

/-- Words that are cut off to the same word start with the same bits. -/
theorem and_leadingMask_eq_iff (fits : p ≤ w) : x &&& leadingMask w p = y &&& leadingMask w p ↔
    (bitsOf w x.toNat).take p = (bitsOf w y.toNat).take p := by
  have kept : ∀ {z : BitVec w} {i : Nat}, i < p →
      (z &&& leadingMask w p).getMsbD i = z.getMsbD i := by
    intro z i front
    rw [BitVec.getMsbD_and, getMsbD_leadingMask fits, decide_eq_true front, Bool.and_true]
  constructor
  · intro same
    apply List.ext_getElem?
    intro i
    rw [List.getElem?_take, List.getElem?_take]
    split
    · rename_i front
      have bit : x.getMsbD i = y.getMsbD i := by rw [← kept front, same, kept front]
      rw [getElem?_bitsOf_toNat (by omega), getElem?_bitsOf_toNat (by omega), bit]
    · rfl
  · intro same
    apply BitVec.eq_of_getMsbD_eq
    intro i inside
    by_cases front : i < p
    · have bit := congrArg (·[i]?) same
      rw [List.getElem?_take_of_lt front, List.getElem?_take_of_lt front,
        getElem?_bitsOf_toNat inside,
        getElem?_bitsOf_toNat inside, Option.some_inj] at bit
      rw [kept front, kept front, bit]
    · rw [BitVec.getMsbD_and, BitVec.getMsbD_and, getMsbD_leadingMask fits,
        decide_eq_false front, Bool.and_false,
        Bool.and_false]

end Commeatus.Lib
