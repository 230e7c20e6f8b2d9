import SqlBatch.Text.Basic
/-!
# Blank characters

The characters with the Unicode property `White_Space`, and the removal of blank ends.
-/

namespace SqlBatch.Text

/-- Membership in `White_Space`: twenty-five code points in ten ranges. -/
def isBlank (c : Char) : Bool :=
  let n := c.toNat
  (0x9 ≤ n && n ≤ 0xD) || n == 0x20 || n == 0x85 || n == 0xA0 || n == 0x1680 ||
    (0x2000 ≤ n && n ≤ 0x200A) || n == 0x2028 || n == 0x2029 || n == 0x202F ||
    n == 0x205F || n == 0x3000

def trimStart (text : Text) : Text := text.dropWhile isBlank

def trimEnd (text : Text) : Text := (text.reverse.dropWhile isBlank).reverse

def trim (text : Text) : Text := trimEnd (trimStart text)

/-- Drops a run of blanks; refuses text that does not start with one. -/
def dropBlanks? : Text → Option Text
  | [] => none
  | c :: rest => if isBlank c then some (trimStart rest) else none

theorem length_trimStart_le (text : Text) : (trimStart text).length ≤ text.length :=
  (List.dropWhile_suffix isBlank).length_le

theorem length_of_dropBlanks? {text after : Text} (h : dropBlanks? text = some after) :
    after.length < text.length := by
  cases text with
  | nil => simp [dropBlanks?] at h
  | cons c rest =>
    have hle := length_trimStart_le rest
    by_cases hc : isBlank c = true
    · simp only [dropBlanks?, hc, if_true, Option.some.injEq] at h
      subst h
      simp only [List.length_cons]
      omega
    · simp [dropBlanks?, hc] at h

end SqlBatch.Text
