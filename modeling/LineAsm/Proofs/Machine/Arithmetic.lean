import LineAsm.Machine.Step

/-!
# Arithmetic of words and of integers

The operations on words are those on integers, taken back to words
(`ArithmeticOp.apply?_eq`).
-/

set_option autoImplicit false

namespace LineAsm

/-- The result of an operation on integers.  A quotient is rounded toward zero. -/
def ArithmeticOp.integer? (op : ArithmeticOp) (left right : Int) : Option Int :=
  match op with
  | .add => some (left + right)
  | .sub => some (left - right)
  | .mul => some (left * right)
  | .div => if right = 0 then none else some (left.tdiv right)
  | .mod => if right = 0 then none else some (left.tmod right)

theorem Int32.ofInt_tdiv_toInt (left right : Int32) :
    Int32.ofInt (left.toInt.tdiv right.toInt) = left / right := by
  rw [Int32.ofInt_tdiv (Int32.le_toInt left) (Int32.toInt_le left) (Int32.le_toInt right)
    (Int32.toInt_le right), Int32.ofInt_toInt, Int32.ofInt_toInt]

theorem Int32.ofInt_tmod_toInt (left right : Int32) :
    Int32.ofInt (left.toInt.tmod right.toInt) = left % right := by
  rw [Int32.ofInt_tmod (Int32.le_toInt left) (Int32.toInt_le left) (Int32.le_toInt right)
    (Int32.toInt_le right), Int32.ofInt_toInt, Int32.ofInt_toInt]

/-- **Words are computed with as integers**, and the result is taken back to a word. -/
theorem ArithmeticOp.apply?_eq (op : ArithmeticOp) (left right : Int32) :
    op.apply? left right = (op.integer? left.toInt right.toInt).map Int32.ofInt := by
  unfold ArithmeticOp.apply? ArithmeticOp.integer?
  have zero : right = 0 ↔ right.toInt = 0 := Int32.toInt_inj.symm
  cases op with
  | add => simp [Int32.ofInt_add]
  | sub => simp [Int32.ofInt_sub]
  | mul => simp [Int32.ofInt_mul]
  | div =>
      simp only [zero]
      split
      · rfl
      · exact congrArg some (Int32.ofInt_tdiv_toInt left right).symm
  | mod =>
      simp only [zero]
      split
      · rfl
      · exact congrArg some (Int32.ofInt_tmod_toInt left right).symm

end LineAsm
