import SqlBatch.Proofs.Run.Inputs
/-!
# The size limit

What reading an input comes to when its bytes are UTF-8 (`readInput_of_encode`).  A text within the
limit is read, and a larger one is reported with the limit.  The exception is a standard input whose
first bytes, one more than allowed, end within a character: they are decoded before they are
counted, so the report is about that character and not about the size
(`stdin_splitCharacter_not_oversize`).
-/

namespace SqlBatch

/-- The size that an input is said to have before it is read. -/
def Input.declared (files : Files) : Input → Nat
  | .file path => ((files path).toOption.map Node.size).getD 0
  | _ => 0

/-- The failure of an input that is too large.  A file may be known to be so before it is read. -/
def Failure.oversize (input : Input) (declared limit : Nat) : Failure :=
  match input with
  | .file path =>
    if limit < declared then .fileTooLarge path declared limit else .inputTooLarge path limit
  | _ => .inputTooLarge input.label limit

theorem Failure.limitMessage_suffix_oversize (input : Input) (declared limit : Nat) :
    Failure.limitMessage limit <:+ (Failure.oversize input declared limit).message := by
  cases input with
  | file path =>
      rw [oversize]
      split <;> exact List.suffix_append _ _
  | _ => exact List.suffix_append _ _

private theorem withinLimit_of_le {input : Input} {limit : Nat} {script : Text}
    (h : Utf8.size script ≤ limit) : withinLimit input limit script = .ok script :=
  withinLimit_eq_ok_iff.2 ⟨rfl, h⟩

theorem withinLimit_of_lt {input : Input} {limit : Nat} {script : Text}
    (h : limit < Utf8.size script) :
    withinLimit input limit script = .error (.inputTooLarge input.label limit) :=
  if_pos h

/-! ## Standard input -/

section Stdin

variable {limit : Nat} {content : Text} {files : Files}

theorem stdinBytes_eq (h : limit < Text.maxWord) : stdinBytes limit = limit + 1 :=
  Nat.min_eq_left h

private theorem readInput_stdin_of_isPrefix {front : Text} (hlimit : limit < Text.maxWord)
    (hfront : front <+: content) (hsize : Utf8.size front = limit + 1) :
    readInput files (Utf8.encode content) limit .stdin =
      .error (.inputTooLarge Input.stdin.label limit) := by
  rw [readInput, stdinBytes_eq hlimit, ← hsize, Utf8.decode_take_of_isPrefix hfront]
  exact withinLimit_of_lt (by omega)

private theorem readInput_stdin_of_splits {front : Text} (hlimit : limit < Text.maxWord)
    (hsplits : Utf8.Splits content (limit + 1) front) :
    readInput files (Utf8.encode content) limit .stdin =
      .error (.stdinUnreadable (.truncated (Utf8.size front))) := by
  rw [readInput, stdinBytes_eq hlimit, Utf8.decode_take_of_splits hsplits]

end Stdin

/-! ## Every input -/

section Inputs

variable {files : Files} {stdin : List UInt8} {limit : Nat} {input : Input} {content : Text}

theorem Input.exists_file_of_bytes? {path : Text} {bytes : List UInt8}
    (h : (Input.file path).bytes? files stdin = some bytes) :
    ∃ size hsize, files path = .ok (.file bytes size hsize) := by
  simp only [bytes?] at h
  split at h
  · next size hsize hfile =>
    obtain rfl := Option.some.inj h
    exact ⟨size, hsize, hfile⟩
  · contradiction

private theorem readInput_file_of_lt {path : Text}
    (hbytes : (Input.file path).bytes? files stdin = some (Utf8.encode content))
    (hlarge : limit < Utf8.size content) :
    readInput files stdin limit (.file path) =
      .error (.oversize (.file path) (Input.declared files (.file path)) limit) := by
  obtain ⟨size, hsize, hfile⟩ := Input.exists_file_of_bytes? hbytes
  have hcontents : Files.contents (.file (Utf8.encode content) size hsize) = .ok content := by
    rw [Files.contents, Utf8.decode_eq_ok_iff.2 rfl]
  have hdeclared : Input.declared files (.file path) = size := by
    rw [Input.declared, hfile]
    rfl
  simp only [readInput, hfile, hcontents, withinLimit_of_lt hlarge, Failure.oversize, hdeclared]
  show (if limit < size then _ else _) = _
  split <;> rfl

private theorem readInput_of_le
    (hbytes : input.bytes? files stdin = some (Utf8.encode content))
    (hfits : input = .stdin → limit < Text.maxWord ∨ Utf8.size content ≤ Text.maxWord)
    (hsize : Utf8.size content ≤ limit) : readInput files stdin limit input = .ok content := by
  have hdecode := Utf8.decode_eq_ok_iff.2 (Eq.refl (Utf8.encode content))
  cases input with
  | inline query =>
      obtain rfl := Utf8.encode_injective (Option.some.inj hbytes)
      exact withinLimit_of_le hsize
  | file path =>
      -- A file is read alike whatever the standard input holds.
      have hread : readInput files [] limit (.file path) = .ok content :=
        (readInput_eq_ok_iff (.inr (Nat.zero_le _))).2 ⟨_, hbytes, hdecode, hsize⟩
      exact hread
  | stdin =>
      obtain rfl : stdin = Utf8.encode content := Option.some.inj hbytes
      exact (readInput_eq_ok_iff (hfits rfl)).2 ⟨_, hbytes, hdecode, hsize⟩

/-- What is within the limit is read, what is larger is refused for its size, and a standard input
cut within a character for that character. -/
theorem readInput_of_encode
    (hbytes : input.bytes? files stdin = some (Utf8.encode content))
    (hfits : input = .stdin → limit < Text.maxWord ∨ Utf8.size content ≤ Text.maxWord) :
    (Utf8.size content ≤ limit → readInput files stdin limit input = .ok content) ∧
      (limit < Utf8.size content →
        (input = .stdin → ∀ front, ¬ Utf8.Splits content (limit + 1) front) →
        readInput files stdin limit input =
            .error (.oversize input (input.declared files) limit) ∧
          Failure.limitMessage limit <:+
            (Failure.oversize input (input.declared files) limit).message) ∧
      ∀ front, input = .stdin → Utf8.Splits content (limit + 1) front →
        readInput files stdin limit input =
          .error (.stdinUnreadable (.truncated (Utf8.size front))) := by
  refine ⟨readInput_of_le hbytes hfits,
    fun hlarge hwhole => ⟨?_, Failure.limitMessage_suffix_oversize _ _ _⟩, ?_⟩
  · cases input with
    | inline query =>
        obtain rfl := Utf8.encode_injective (Option.some.inj hbytes)
        exact withinLimit_of_lt hlarge
    | file path => exact readInput_file_of_lt hbytes hlarge
    | stdin =>
        obtain rfl : stdin = Utf8.encode content := Option.some.inj hbytes
        have hlimit : limit < Text.maxWord := (hfits rfl).elim id hlarge.trans_le
        obtain ⟨front, hfront, hsize⟩ | ⟨front, hsplits⟩ :=
          Utf8.exists_prefix_or_splits content (Nat.succ_le_of_lt hlarge)
        · exact readInput_stdin_of_isPrefix hlimit hfront hsize
        · exact absurd hsplits (hwhole rfl front)
  · rintro front rfl hsplits
    obtain rfl : stdin = Utf8.encode content := Option.some.inj hbytes
    have hlarge : limit < Utf8.size content := Nat.lt_of_succ_lt hsplits.lt_size
    exact readInput_stdin_of_splits ((hfits rfl).elim id hlarge.trans_le) hsplits

/-- `é` on the standard input within the limit, with a character behind it that is one too many, in
a file that is too large, and in a pipe; `€` cut after its second byte. -/
theorem readInput_of_encode_oneByteLimit :
    readInput (fun _ => .error .notFound) (Utf8.encode ['é']) 2 .stdin = .ok ['é'] ∧
    readInput (fun _ => .error .notFound) (Utf8.encode ['é', ';']) 1 .stdin =
      .error (.inputTooLarge "<stdin>".toList 1) ∧
    readInput (fun _ => .ok (.file (Utf8.encode ['é']))) [] 1 (.file "a.sql".toList) =
      .error (.fileTooLarge "a.sql".toList 2 1) ∧
    readInput (fun _ => .ok (.file (Utf8.encode ['é']) 0 (Nat.zero_le _))) [] 1
        (.file "a.sql".toList) =
      .error (.inputTooLarge "a.sql".toList 1) ∧
    readInput (fun _ => .error .notFound) (Utf8.encode ['€']) 1 .stdin =
      .error (.stdinUnreadable (.truncated 0)) := by
  have hsmall (limit : Nat) (content : Text) (input : Input) (h : limit < Text.maxWord) :
      input = .stdin → limit < Text.maxWord ∨ Utf8.size content ≤ Text.maxWord := fun _ => .inl h
  have hfile : (Input.file "a.sql".toList).bytes? (fun _ => .ok (.file (Utf8.encode ['é']))) [] =
      some (Utf8.encode ['é']) := rfl
  have hpipe : (Input.file "a.sql".toList).bytes?
      (fun _ => .ok (.file (Utf8.encode ['é']) 0 (Nat.zero_le _))) [] =
      some (Utf8.encode ['é']) := rfl
  have hfront : ['é'] <+: ['é', ';'] := ⟨[';'], rfl⟩
  refine ⟨?_, ?_, ?_, ?_, ?_⟩
  · exact (readInput_of_encode rfl (hsmall 2 ['é'] _ (by decide))).1 (by decide)
  · exact ((readInput_of_encode rfl (hsmall 1 ['é', ';'] _ (by decide))).2.1 (by decide)
      fun _ => Utf8.not_splits_of_isPrefix hfront).1
  · exact ((readInput_of_encode hfile (hsmall 1 ['é'] _ (by decide))).2.1 (by decide)
      fun h => nomatch h).1
  · exact ((readInput_of_encode hpipe (hsmall 1 ['é'] _ (by decide))).2.1 (by decide)
      fun h => nomatch h).1
  · exact (readInput_of_encode rfl (hsmall 1 ['€'] _ (by decide))).2.2 [] rfl
      ⟨'€', [], rfl, by decide, by decide⟩

/-- `€` takes three bytes.  With a limit of one, two of them are read, and the report is that they
are no UTF-8. -/
theorem stdin_splitCharacter_not_oversize :
    1 < Utf8.size ['€'] ∧
      ¬ ∃ failure, readInput (fun _ => .error .notFound) (Utf8.encode ['€']) 1 .stdin =
          .error failure ∧
        Failure.limitMessage 1 <:+ failure.message := by
  refine ⟨by decide, ?_⟩
  rintro ⟨failure, hread, hmessage⟩
  have hfault : readInput (fun _ => .error .notFound) (Utf8.encode ['€']) 1 .stdin =
      .error (.stdinUnreadable (.truncated 0)) := by rfl
  rw [hfault] at hread
  obtain rfl := Except.error.inj hread
  exact absurd hmessage (by decide +kernel)

end Inputs

end SqlBatch
