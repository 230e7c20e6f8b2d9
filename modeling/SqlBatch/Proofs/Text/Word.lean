import SqlBatch.Text.Word
import SqlBatch.Proofs.Text.Trim
/-!
# Words and blanks

No word character is blank.  A text without word characters holds no keyword, whatever stands
around it.
-/

namespace SqlBatch.Text

def blankCodes : List Nat :=
  [0x9, 0xA, 0xB, 0xC, 0xD, 0x20, 0x85, 0xA0, 0x1680, 0x2000, 0x2001, 0x2002, 0x2003, 0x2004,
   0x2005, 0x2006, 0x2007, 0x2008, 0x2009, 0x200A, 0x2028, 0x2029, 0x202F, 0x205F, 0x3000]

theorem isBlank_iff_mem_blankCodes {c : Char} : isBlank c = true ↔ c.toNat ∈ blankCodes := by
  simp only [isBlank, blankCodes, Bool.or_eq_true, Bool.and_eq_true, decide_eq_true_eq,
    beq_iff_eq, List.mem_cons, List.not_mem_nil, or_false]
  omega

theorem isWord_eq_false_of_isBlank {c : Char} (h : isBlank c = true) : isWord c = false := by
  have hcodes : ∀ n ∈ blankCodes, isWord (Char.ofNat n) = false := by decide +kernel
  rw [← Char.ofNat_toNat c]
  exact hcodes c.toNat (isBlank_iff_mem_blankCodes.1 h)

theorem isBlank_eq_false_of_isWord {c : Char} (h : isWord c = true) : isBlank c = false := by
  rw [← Bool.not_eq_true]
  intro hblank
  rw [isWord_eq_false_of_isBlank hblank] at h
  contradiction

def Wordless (text : Text) : Prop := ∀ c ∈ text, isWord c = false

instance (text : Text) : Decidable (Wordless text) :=
  List.decidableBAll (fun c => isWord c = false) text

@[simp] theorem wordless_nil : Wordless [] := fun _ h => nomatch h

@[simp] theorem wordless_cons {c : Char} {text : Text} :
    Wordless (c :: text) ↔ isWord c = false ∧ Wordless text := List.forall_mem_cons

@[simp] theorem wordless_append {u v : Text} :
    Wordless (u ++ v) ↔ Wordless u ∧ Wordless v := List.forall_mem_append

theorem AllBlank.wordless {text : Text} (h : AllBlank text) : Wordless text :=
  fun c hc => isWord_eq_false_of_isBlank (h c hc)

theorem Wordless.of_suffix {u v : Text} (hv : Wordless v) (h : u <:+ v) : Wordless u :=
  fun c hc => hv c (h.subset hc)

theorem Wordless.trimStart {text : Text} (h : Wordless text) : Wordless (trimStart text) :=
  h.of_suffix (List.dropWhile_suffix _)

theorem Wordless.endsWord {text : Text} (h : Wordless text) : endsWord text = true := by
  cases text with
  | nil => rfl
  | cons c text => simp [Text.endsWord, h c (by simp)]

@[simp] theorem endsWord_append {x : Text} (hx : endsWord x = true) (text : Text) :
    endsWord (text ++ x) = endsWord text := by
  cases text with
  | nil => exact hx
  | cons c rest => rfl

end SqlBatch.Text
