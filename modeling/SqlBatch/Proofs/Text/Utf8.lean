import SqlBatch.Proofs.Text.Lines
import SqlBatch.Text.Utf8
/-!
# UTF-8 there and back

The bytes that decode to a text are those that the text is encoded as, and no others
(`decode_eq_ok_iff`).  `Spells` says which bytes make up one character; encoding and decoding are
both compared with it.  The first bytes of a text decode to a front part of it, unless they end
within a character (`exists_prefix_or_splits`).  A line feed byte is a line feed, so bytes are cut
into lines where their text is (`chunks_encode`).
-/

namespace SqlBatch.Utf8

open Text

/-! ## Bytes of one character -/

/-- The byte may come second after a first byte of two to four. -/
def Follows (first : Nat) (byte : UInt8) : Prop :=
  ∃ range, secondRange? first = some range ∧ within range byte = true

inductive Spells : Nat → List UInt8 → Prop where
  | one {a : UInt8} (ascii : a.toNat < 0x80) : Spells a.toNat [a]
  | two {a b : UInt8} (second : Follows a.toNat b) (short : a.toNat < 0xE0) :
    Spells ((a.toNat - 0xC0) * 64 + tailBits b) [a, b]
  | three {a b c : UInt8} (second : Follows a.toNat b) (long : 0xE0 ≤ a.toNat)
    (short : a.toNat < 0xF0) (third : isTail c = true) :
    Spells ((a.toNat - 0xE0) * 4096 + tailBits b * 64 + tailBits c) [a, b, c]
  | four {a b c d : UInt8} (second : Follows a.toNat b) (long : 0xF0 ≤ a.toNat)
    (third : isTail c = true) (fourth : isTail d = true) :
    Spells ((a.toNat - 0xF0) * 262144 + tailBits b * 4096 + tailBits c * 64 + tailBits d)
      [a, b, c, d]

theorem follows_iff {first : Nat} {byte : UInt8} :
    Follows first byte ↔
      0xC2 ≤ first ∧ first ≤ 0xF4 ∧ 0x80 ≤ byte.toNat ∧ byte.toNat ≤ 0xBF ∧
        (first = 0xE0 → 0xA0 ≤ byte.toNat) ∧ (first = 0xED → byte.toNat ≤ 0x9F) ∧
        (first = 0xF0 → 0x90 ≤ byte.toNat) ∧ (first = 0xF4 → byte.toNat ≤ 0x8F) := by
  unfold Follows secondRange?
  repeat' split
  all_goals simp [within]
  all_goals omega

theorem isTail_iff {byte : UInt8} :
    isTail byte = true ↔ 0x80 ≤ byte.toNat ∧ byte.toNat ≤ 0xBF := by
  simp [isTail, within]

private theorem toNat_ofNat {n : Nat} (h : n.isValidChar) : (Char.ofNat n).toNat = n := by
  rw [Char.ofNat, dif_pos h]
  rfl

/-! ## Encoding -/

theorem encodeChar_ofNat {n : Nat} (h : n.isValidChar) :
    encodeChar (Char.ofNat n) =
      if n < 0x80 then [UInt8.ofNat n]
      else if n < 0x800 then [UInt8.ofNat (0xC0 + n / 64), UInt8.ofNat (0x80 + n % 64)]
      else if n < 0x10000 then
        [UInt8.ofNat (0xE0 + n / 4096), UInt8.ofNat (0x80 + n / 64 % 64),
          UInt8.ofNat (0x80 + n % 64)]
      else
        [UInt8.ofNat (0xF0 + n / 262144), UInt8.ofNat (0x80 + n / 4096 % 64),
          UInt8.ofNat (0x80 + n / 64 % 64), UInt8.ofNat (0x80 + n % 64)] := by
  rw [encodeChar, toNat_ofNat h]

theorem ofNat_eq {n : Nat} {b : UInt8} (h : n = b.toNat) : UInt8.ofNat n = b := by
  rw [h, UInt8.ofNat_toNat]

theorem Spells.encodeChar_eq {n : Nat} {bytes : List UInt8} (h : Spells n bytes) :
    n.isValidChar ∧ encodeChar (Char.ofNat n) = bytes := by
  cases h with
  | @one a ascii =>
      have hvalid : a.toNat.isValidChar := by
        unfold Nat.isValidChar
        omega
      rw [encodeChar_ofNat hvalid, if_pos ascii, UInt8.ofNat_toNat]
      exact ⟨hvalid, rfl⟩
  | @two a b second short =>
      rw [follows_iff] at second
      have hvalid : ((a.toNat - 0xC0) * 64 + tailBits b).isValidChar := by
        unfold Nat.isValidChar tailBits
        omega
      rw [encodeChar_ofNat hvalid]
      unfold tailBits at hvalid ⊢
      rw [if_neg (by omega), if_pos (by omega), ofNat_eq (b := a) (by omega),
        ofNat_eq (b := b) (by omega)]
      exact ⟨hvalid, rfl⟩
  | @three a b c second long short third =>
      rw [follows_iff] at second
      rw [isTail_iff] at third
      have hvalid : ((a.toNat - 0xE0) * 4096 + tailBits b * 64 + tailBits c).isValidChar := by
        unfold Nat.isValidChar tailBits
        omega
      rw [encodeChar_ofNat hvalid]
      unfold tailBits at hvalid ⊢
      rw [if_neg (by omega), if_neg (by omega), if_pos (by omega), ofNat_eq (b := a) (by omega),
        ofNat_eq (b := b) (by omega), ofNat_eq (b := c) (by omega)]
      exact ⟨hvalid, rfl⟩
  | @four a b c d second long third fourth =>
      rw [follows_iff] at second
      rw [isTail_iff] at third fourth
      have hvalid : ((a.toNat - 0xF0) * 262144 + tailBits b * 4096 + tailBits c * 64 +
          tailBits d).isValidChar := by
        unfold Nat.isValidChar tailBits
        omega
      rw [encodeChar_ofNat hvalid]
      unfold tailBits at hvalid ⊢
      rw [if_neg (by omega), if_neg (by omega), if_neg (by omega), ofNat_eq (b := a) (by omega),
        ofNat_eq (b := b) (by omega), ofNat_eq (b := c) (by omega),
        ofNat_eq (b := d) (by omega)]
      exact ⟨hvalid, rfl⟩

theorem exists_byte {n : Nat} (h : n < 256) :
    ∃ byte : UInt8, UInt8.ofNat n = byte ∧ byte.toNat = n :=
  ⟨_, rfl, UInt8.toNat_ofNat_of_lt' h⟩

theorem spells_encodeChar (c : Char) : Spells c.toNat (encodeChar c) := by
  have hvalid : c.toNat < 0xD800 ∨ (0xDFFF < c.toNat ∧ c.toNat < 0x110000) := c.valid
  simp only [encodeChar]
  generalize c.toNat = n at hvalid
  split
  · obtain ⟨a, hbyte, ha⟩ := exists_byte (n := n) (by omega)
    rw [hbyte, ← ha]
    exact .one (by omega)
  split
  · obtain ⟨a, hfirst, ha⟩ := exists_byte (n := 0xC0 + n / 64) (by omega)
    obtain ⟨b, hsecond, hb⟩ := exists_byte (n := 0x80 + n % 64) (by omega)
    have hn : n = (a.toNat - 0xC0) * 64 + tailBits b := by
      unfold tailBits
      omega
    rw [hfirst, hsecond, hn]
    exact .two (follows_iff.2 (by omega)) (by omega)
  split
  · obtain ⟨a, hfirst, ha⟩ := exists_byte (n := 0xE0 + n / 4096) (by omega)
    obtain ⟨b, hsecond, hb⟩ := exists_byte (n := 0x80 + n / 64 % 64) (by omega)
    obtain ⟨d, hthird, hd⟩ := exists_byte (n := 0x80 + n % 64) (by omega)
    have hn : n = (a.toNat - 0xE0) * 4096 + tailBits b * 64 + tailBits d := by
      unfold tailBits
      omega
    rw [hfirst, hsecond, hthird, hn]
    exact .three (follows_iff.2 (by omega)) (by omega) (by omega) (isTail_iff.2 (by omega))
  · obtain ⟨a, hfirst, ha⟩ := exists_byte (n := 0xF0 + n / 262144) (by omega)
    obtain ⟨b, hsecond, hb⟩ := exists_byte (n := 0x80 + n / 4096 % 64) (by omega)
    obtain ⟨d, hthird, hd⟩ := exists_byte (n := 0x80 + n / 64 % 64) (by omega)
    obtain ⟨e, hfourth, he⟩ := exists_byte (n := 0x80 + n % 64) (by omega)
    have hn : n = (a.toNat - 0xF0) * 262144 + tailBits b * 4096 + tailBits d * 64 + tailBits e := by
      unfold tailBits
      omega
    rw [hfirst, hsecond, hthird, hfourth, hn]
    exact .four (follows_iff.2 (by omega)) (by omega) (isTail_iff.2 (by omega))
      (isTail_iff.2 (by omega))

/-! ## Decoding -/

private theorem decodeFrom_append {n : Nat} {bytes : List UInt8} (h : Spells n bytes) (index : Nat)
    (done : Text) (rest : List UInt8) :
    decodeFrom index done (bytes ++ rest) =
      decodeFrom (index + bytes.length) (Char.ofNat n :: done) rest := by
  cases h with
  | @one a ascii =>
      rw [List.singleton_append, decodeFrom, if_pos ascii]
      rfl
  | @two a b second short =>
      obtain ⟨range, hrange, hwithin⟩ := second
      have hlong := (follows_iff.1 ⟨range, hrange, hwithin⟩).1
      simp only [List.cons_append, List.nil_append, decodeFrom, hrange, hwithin,
        if_neg (show ¬ a.toNat < 0x80 by omega), if_pos short]
      rfl
  | @three a b c second long short third =>
      obtain ⟨range, hrange, hwithin⟩ := second
      simp only [List.cons_append, List.nil_append, decodeFrom, hrange, hwithin, third,
        if_neg (show ¬ a.toNat < 0x80 by omega), if_neg (show ¬ a.toNat < 0xE0 by omega),
        if_pos short]
      rfl
  | @four a b c d second long third fourth =>
      obtain ⟨range, hrange, hwithin⟩ := second
      simp only [List.cons_append, List.nil_append, decodeFrom, hrange, hwithin, third, fourth,
        if_neg (show ¬ a.toNat < 0x80 by omega), if_neg (show ¬ a.toNat < 0xE0 by omega),
        if_neg (show ¬ a.toNat < 0xF0 by omega)]
      rfl

@[simp] theorem encode_append (front back : Text) :
    encode (front ++ back) = encode front ++ encode back := List.flatMap_append

/-- Behind the bytes of a text decoding goes on with what was decoded. -/
theorem decodeFrom_encode_append (index : Nat) (done text : Text) (rest : List UInt8) :
    decodeFrom index done (encode text ++ rest) =
      decodeFrom (index + size text) (text.reverse ++ done) rest := by
  induction text generalizing index done with
  | nil => rfl
  | cons c text ih =>
      have hencode : encode (c :: text) = encodeChar c ++ encode text := rfl
      rw [size, hencode, List.append_assoc, decodeFrom_append (spells_encodeChar c),
        Char.ofNat_toNat, ih, List.length_append, ← Nat.add_assoc, List.reverse_cons,
        List.append_assoc, List.singleton_append]
      rfl

theorem decodeFrom_encode (index : Nat) (done text : Text) :
    decodeFrom index done (encode text) = .ok (done.reverse ++ text) := by
  have h := decodeFrom_encode_append index done text []
  rwa [List.append_nil, decodeFrom, List.reverse_append, List.reverse_reverse] at h

theorem Spells.exists_encode {n : Nat} {front back : List UInt8} (h : Spells n front)
    {done text : Text}
    (hback : ∃ later, text = (Char.ofNat n :: done).reverse ++ later ∧ back = encode later) :
    ∃ later, text = done.reverse ++ later ∧ front ++ back = encode later := by
  obtain ⟨later, htext, rfl⟩ := hback
  refine ⟨Char.ofNat n :: later, by simp [htext], ?_⟩
  rw [← h.encodeChar_eq.2]
  rfl

theorem exists_encode_of_decodeFrom {index : Nat} {done text : Text} {bytes : List UInt8}
    (h : decodeFrom index done bytes = .ok text) :
    ∃ later, text = done.reverse ++ later ∧ bytes = encode later := by
  fun_induction decodeFrom index done bytes with
  | case1 index done =>
      obtain rfl : done.reverse = text := by simpa using h
      exact ⟨[], by simp, rfl⟩
  | case2 index done a rest ascii ih => exact (Spells.one ascii).exists_encode (ih h)
  | case6 index done a ascii range hrange b rest hb short ih =>
      have second : Follows a.toNat b := ⟨range, hrange, by simpa using hb⟩
      exact (Spells.two second short).exists_encode (ih h)
  | case9 index done a ascii range hrange b hb long c rest hc short ih =>
      have second : Follows a.toNat b := ⟨range, hrange, by simpa using hb⟩
      exact (Spells.three second (by omega) short (by simpa using hc)).exists_encode (ih h)
  | case12 index done a ascii range hrange b hb long c hc longer d rest hd ih =>
      have second : Follows a.toNat b := ⟨range, hrange, by simpa using hb⟩
      exact (Spells.four second (by omega) (by simpa using hc) (by simpa using hd)).exists_encode
        (ih h)
  | _ => contradiction

/-- The bytes of a text decode to it, and no other bytes do. -/
theorem decode_eq_ok_iff {bytes : List UInt8} {text : Text} :
    decode bytes = .ok text ↔ bytes = encode text := by
  constructor
  · intro h
    obtain ⟨later, htext, hbytes⟩ := exists_encode_of_decodeFrom h
    rw [hbytes, htext]
    rfl
  · rintro rfl
    exact decodeFrom_encode 0 [] text

/-! ## Bytes cut short -/

/-- Decoding stops where the bytes end within a character. -/
theorem Spells.decodeFrom_take {n : Nat} {bytes : List UInt8} (h : Spells n bytes) (index : Nat)
    (done : Text) {k : Nat} (hpos : 0 < k) (hk : k < bytes.length) :
    decodeFrom index done (bytes.take k) = .error (.truncated index) := by
  cases h with
  | one ascii =>
      rw [List.length_singleton] at hk
      omega
  | two second short =>
      obtain rfl : k = 1 := by
        simp only [List.length_cons, List.length_nil] at hk
        omega
      have hlong := (follows_iff.1 second).1
      obtain ⟨range, hrange, -⟩ := second
      simp only [List.take_succ_cons, List.take_zero, decodeFrom, hrange]
      rw [if_neg (by omega)]
  | three second long short third =>
      obtain ⟨range, hrange, hwithin⟩ := second
      obtain rfl | rfl : k = 1 ∨ k = 2 := by
        simp only [List.length_cons, List.length_nil] at hk
        omega
      · simp only [List.take_succ_cons, List.take_zero, decodeFrom, hrange]
        rw [if_neg (by omega)]
      · simp only [List.take_succ_cons, List.take_zero, decodeFrom, hrange, hwithin]
        rw [if_neg (by omega), if_neg (by decide), if_neg (by omega)]
  | four second long third fourth =>
      obtain ⟨range, hrange, hwithin⟩ := second
      obtain rfl | rfl | rfl : k = 1 ∨ k = 2 ∨ k = 3 := by
        simp only [List.length_cons, List.length_nil] at hk
        omega
      · simp only [List.take_succ_cons, List.take_zero, decodeFrom, hrange]
        rw [if_neg (by omega)]
      · simp only [List.take_succ_cons, List.take_zero, decodeFrom, hrange, hwithin]
        rw [if_neg (by omega), if_neg (by decide), if_neg (by omega)]
      · simp only [List.take_succ_cons, List.take_zero, decodeFrom, hrange, hwithin, third]
        rw [if_neg (by omega), if_neg (by decide), if_neg (by omega), if_neg (by decide),
          if_neg (by omega)]

/-- The first `n` bytes of a text end within a character, the one behind `front`. -/
def Splits (text : Text) (n : Nat) (front : Text) : Prop :=
  ∃ c back, text = front ++ c :: back ∧ size front < n ∧ n < size (front ++ [c])

theorem size_append (front back : Text) : size (front ++ back) = size front + size back := by
  rw [size, encode_append, List.length_append, size, size]

theorem Splits.lt_size {text front : Text} {n : Nat} (h : Splits text n front) : n < size text := by
  obtain ⟨c, back, rfl, -, hwithin⟩ := h
  rw [← List.singleton_append, ← List.append_assoc, size_append]
  omega

theorem decode_take_of_isPrefix {front text : Text} (h : front <+: text) :
    decode ((encode text).take (size front)) = .ok front := by
  obtain ⟨back, rfl⟩ := h
  rw [encode_append, size, List.take_left, decode_eq_ok_iff]

theorem decode_take_of_splits {text front : Text} {n : Nat} (h : Splits text n front) :
    decode ((encode text).take n) = .error (.truncated (size front)) := by
  obtain ⟨c, back, rfl, hfront, hwithin⟩ := h
  have hsingle : encode [c] = encodeChar c := List.append_nil _
  obtain ⟨k, rfl⟩ : ∃ k, n = size front + k := ⟨n - size front, by omega⟩
  have hk : k < (encodeChar c).length := by
    rw [size_append, size, size, hsingle] at hwithin
    omega
  have hbytes : (encode (front ++ c :: back)).take (size front + k) =
      encode front ++ (encodeChar c).take k := by
    have hencode : encode (c :: back) = encodeChar c ++ encode back := rfl
    rw [encode_append, size, List.take_length_add_append, hencode,
      List.take_append_of_le_length (by omega)]
  rw [hbytes, decode, decodeFrom_encode_append,
    (spells_encodeChar c).decodeFrom_take _ _ (by omega) hk, Nat.zero_add]

theorem not_splits_of_isPrefix {front text : Text} (h : front <+: text) (other : Text) :
    ¬ Splits text (size front) other := by
  intro hsplits
  have hdecode := decode_take_of_isPrefix h
  rw [decode_take_of_splits hsplits] at hdecode
  contradiction

/-- The bytes of a text are cut behind one of its characters, or within one. -/
theorem exists_prefix_or_splits (text : Text) {n : Nat} (h : n ≤ size text) :
    (∃ front, front <+: text ∧ size front = n) ∨ ∃ front, Splits text n front := by
  induction text using List.reverseRecOn with
  | nil =>
      obtain rfl : n = 0 := Nat.le_zero.1 h
      exact .inl ⟨[], List.nil_prefix, rfl⟩
  | append_singleton text c ih =>
      by_cases hle : n ≤ size text
      · obtain ⟨front, hfront, hsize⟩ | ⟨front, d, back, rfl, hsplits⟩ := ih hle
        · exact .inl ⟨front, hfront.trans (List.prefix_append _ _), hsize⟩
        · exact .inr ⟨front, d, back ++ [c], by simp, hsplits⟩
      · by_cases hall : size (text ++ [c]) = n
        · exact .inl ⟨text ++ [c], List.prefix_refl _, hall⟩
        · exact .inr ⟨text, c, [], rfl, by omega, by omega⟩

/-! ## Bytes of lines -/

/-- A byte below 0x80 makes up a character of its own. -/
theorem Spells.eq_of_mem {n : Nat} {bytes : List UInt8} (h : Spells n bytes) {byte : UInt8}
    (hmem : byte ∈ bytes) (hascii : byte.toNat < 0x80) : n = byte.toNat := by
  cases h with
  | one ascii =>
      rw [List.mem_singleton] at hmem
      rw [hmem]
  | two second short =>
      rw [follows_iff] at second
      simp only [List.mem_cons, List.not_mem_nil, or_false] at hmem
      rcases hmem with rfl | rfl <;> omega
  | three second long short third =>
      rw [follows_iff] at second
      rw [isTail_iff] at third
      simp only [List.mem_cons, List.not_mem_nil, or_false] at hmem
      rcases hmem with rfl | rfl | rfl <;> omega
  | four second long third fourth =>
      rw [follows_iff] at second
      rw [isTail_iff] at third fourth
      simp only [List.mem_cons, List.not_mem_nil, or_false] at hmem
      rcases hmem with rfl | rfl | rfl | rfl <;> omega

theorem lineFeed_mem_encode {text : Text} (h : (10 : UInt8) ∈ encode text) : '\n' ∈ text := by
  obtain ⟨c, hc, hbyte⟩ := List.mem_flatMap.1 h
  have hn := (spells_encodeChar c).eq_of_mem hbyte (by decide)
  have hfeed : c = '\n' := by
    rw [← Char.ofNat_toNat c, hn]
    rfl
  exact hfeed ▸ hc

theorem encode_flatten (texts : List Text) :
    encode texts.flatten = (texts.map encode).flatten := by
  induction texts with
  | nil => rfl
  | cons text texts ih =>
      rw [List.flatten_cons, encode_append, ih, List.map_cons, List.flatten_cons]

theorem encode_injective {u v : Text} (h : encode u = encode v) : u = v := by
  have hu : decode (encode u) = .ok u := decode_eq_ok_iff.2 rfl
  rw [h, decode_eq_ok_iff.2 rfl] at hu
  exact (Except.ok.inj hu).symm

private theorem encode_eq_nil {text : Text} : encode text = [] ↔ text = [] := by
  constructor
  · exact fun h => encode_injective (v := []) h
  · rintro rfl
    rfl

/-- Bytes are cut behind a line feed where their text is. -/
theorem chunks_encode (text : Text) :
    chunks (· == 10) (encode text) = (chunks (· == '\n') text).map encode := by
  induction text using mark_induction '\n' with
  | last items hitems =>
      have hbytes : (10 : UInt8) ∉ encode items := mt lineFeed_mem_encode hitems
      by_cases hnil : items = []
      · rw [hnil]
        rfl
      · rw [chunks_of_notMem hbytes (mt encode_eq_nil.1 hnil), chunks_of_notMem hitems hnil,
          List.map_singleton]
  | more items rest hitems ih =>
      have hbytes : (10 : UInt8) ∉ encode items := mt lineFeed_mem_encode hitems
      have hfeed : encode ('\n' :: rest) = 10 :: encode rest := by
        rw [← List.singleton_append, encode_append]
        rfl
      have hline : encode (items ++ ['\n']) = encode items ++ [10] := encode_append _ _
      rw [encode_append, hfeed, chunks_append_mark hbytes, chunks_append_mark hitems, ih,
        List.map_cons, hline]

end SqlBatch.Utf8
