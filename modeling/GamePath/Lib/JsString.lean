import Mathlib.Data.List.DropRight

/-!
# Strings of JavaScript

A string is its list of characters. `trim` takes white space and line terminators off both ends.
-/

namespace GamePath.Lib.JsString

open List

/-- White space and line terminators. -/
def isWhitespace (c : Char) : Bool :=
  let n := c.toNat
  (9 ≤ n && n ≤ 13) || n = 32 || n = 0xA0 || n = 0x1680 || (0x2000 ≤ n && n ≤ 0x200A) ||
    n = 0x2028 || n = 0x2029 || n = 0x202F || n = 0x205F || n = 0x3000 || n = 0xFEFF

def trim (value : List Char) : List Char := (value.dropWhile isWhitespace).rdropWhile isWhitespace

/-- Nothing is left to take off. -/
theorem trim_trim (value : List Char) : trim (trim value) = trim value := by
  have hhead : (trim value).dropWhile isWhitespace = trim value := by
    cases htrim : trim value with
    | nil => rfl
    | cons c rest =>
      -- The result begins as the value without its leading white space does.
      obtain ⟨tail, htail⟩ : trim value <+: value.dropWhile isWhitespace :=
        rdropWhile_prefix isWhitespace _
      rw [htrim] at htail
      have hfirst : isWhitespace c = false := by
        have hne : value.dropWhile isWhitespace ≠ [] := by
          rw [← htail]
          exact nofun
        have hnot := head_dropWhile_not isWhitespace hne
        simpa only [← htail, cons_append, head_cons] using hnot
      exact dropWhile_cons_of_neg (Bool.eq_false_iff.1 hfirst)
  calc trim (trim value) = (trim value).rdropWhile isWhitespace := by rw [trim, hhead]
    _ = trim value := rdropWhile_idempotent isWhitespace _

end GamePath.Lib.JsString
