import Mathlib.Data.Nat.Notation

/-!
# Strings in fixed arrays

A string that is copied into an array, cut to the room there is and terminated, is read back
up to its own first NUL.
-/

namespace CString

theorem takeWhile_terminated (s rest : List UInt8) (k : ℕ) :
    (s.take k ++ 0 :: rest).takeWhile (· ≠ 0) = (s.takeWhile (· ≠ 0)).take k := by
  induction s generalizing k with
  | nil => simp
  | cons b s ih =>
    cases k with
    | zero => simp
    | succ k =>
      by_cases hb : b = 0
      · simp [hb]
      · simpa [hb] using ih k

end CString
