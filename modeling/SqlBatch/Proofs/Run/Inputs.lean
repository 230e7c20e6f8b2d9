import SqlBatch.Run.Reports
import SqlBatch.Proofs.Text.Utf8
import Mathlib.Control.Monad.Basic
/-!
# Reading the inputs of a run

An input gives a script if its bytes can be read, are UTF-8 and are not too many
(`readInput_eq_ok_iff`).  Inputs have nothing to do with each other but that the first dash takes all
of the standard input (`stdinBehind`), so all of them can be read if each can on its own; otherwise
the first that cannot is the one that the failure is about.
-/

namespace SqlBatch

/-! ## One input -/

/-- The bytes of an input, if they can be read.  `stdin` holds what the standard input has left. -/
def Input.bytes? (files : Files) (stdin : List UInt8) : Input → Option (List UInt8)
  | .inline query => some (Utf8.encode query)
  | .stdin => some stdin
  | .file path =>
    match files path with
    | .ok (.file bytes _ _) => some bytes
    | _ => none

/-- All bytes of an input can be read, they spell `script`, and there are at most `limit` of
them. -/
def Input.Gives (files : Files) (stdin : List UInt8) (limit : Nat) (input : Input) (script : Text) :
    Prop :=
  ∃ bytes, input.bytes? files stdin = some bytes ∧ Utf8.decode bytes = .ok script ∧
    bytes.length ≤ limit

theorem withinLimit_eq_ok_iff {input : Input} {limit : Nat} {script text : Text} :
    withinLimit input limit script = .ok text ↔
      script = text ∧ (Utf8.encode text).length ≤ limit := by
  unfold withinLimit
  by_cases hlarge : limit < Utf8.size script
  · rw [if_pos hlarge]
    constructor
    · intro h
      contradiction
    · rintro ⟨rfl, hsize⟩
      exact absurd hlarge (Nat.not_lt.2 hsize)
  · rw [if_neg hlarge, Except.ok.injEq]
    constructor
    · rintro rfl
      exact ⟨rfl, Nat.not_lt.1 hlarge⟩
    · exact And.left

/-- The standard input is read as far as it takes to see whether it is too large. -/
theorem decode_take_stdinBytes {stdin : List UInt8} {limit : Nat}
    (hfits : limit < Text.maxWord ∨ stdin.length ≤ Text.maxWord) {script : Text} :
    Utf8.decode (stdin.take (stdinBytes limit)) = .ok script ∧
        (Utf8.encode script).length ≤ limit ↔
      Utf8.decode stdin = .ok script ∧ stdin.length ≤ limit := by
  have hall : (stdin.take (stdinBytes limit)).length ≤ limit ∨ stdin.length ≤ limit →
      stdin.length ≤ stdinBytes limit := by
    rw [List.length_take, stdinBytes]
    omega
  simp only [Utf8.decode_eq_ok_iff]
  constructor
  · rintro ⟨htake, hsize⟩
    rw [← htake] at hsize
    have hsame := List.take_of_length_le (hall (.inl hsize))
    rw [hsame] at htake hsize
    exact ⟨htake, hsize⟩
  · rintro ⟨hbytes, hsize⟩
    rw [List.take_of_length_le (hall (.inr hsize)), ← hbytes]
    exact ⟨rfl, hsize⟩

theorem readInput_eq_ok_iff {files : Files} {stdin : List UInt8} {limit : Nat}
    (hfits : limit < Text.maxWord ∨ stdin.length ≤ Text.maxWord) {input : Input} {script : Text} :
    readInput files stdin limit input = .ok script ↔ input.Gives files stdin limit script := by
  have hgives : ∀ bytes, input.bytes? files stdin = some bytes →
      (input.Gives files stdin limit script ↔
        Utf8.decode bytes = .ok script ∧ bytes.length ≤ limit) := by
    intro bytes hbytes
    simp [Input.Gives, hbytes]
  cases input with
  | inline query =>
      rw [hgives _ rfl, readInput, withinLimit_eq_ok_iff, Utf8.decode_eq_ok_iff]
      constructor
      · rintro ⟨rfl, hsize⟩
        exact ⟨rfl, hsize⟩
      · rintro ⟨hquery, hsize⟩
        obtain rfl := Utf8.encode_injective hquery
        exact ⟨rfl, hsize⟩
  | stdin =>
      rw [hgives _ rfl, ← decode_take_stdinBytes hfits, readInput]
      cases hdecode : Utf8.decode (stdin.take (stdinBytes limit)) with
      | error fault => simp
      | ok text => simp only [withinLimit_eq_ok_iff, Except.ok.injEq]
  | file path =>
      cases hfile : files path with
      | error cause => simp [Input.Gives, Input.bytes?, readInput, hfile]
      | ok node =>
          cases node with
          | directory size =>
              by_cases hlarge : limit < size <;>
                simp [Input.Gives, Input.bytes?, readInput, hfile, Node.size, Files.contents,
                  hlarge]
          | file bytes size hsize_le =>
              rw [hgives bytes (by simp [Input.bytes?, hfile])]
              simp only [readInput, hfile, Files.contents]
              by_cases hlarge : limit < (Node.file bytes size hsize_le).size
              · rw [if_pos hlarge]
                simp only [reduceCtorEq, false_iff, not_and, Nat.not_le]
                exact fun _ => hlarge.trans_le hsize_le
              · rw [if_neg hlarge]
                cases hdecode : Utf8.decode bytes with
                | error fault => simp
                | ok text =>
                    have hsize := congrArg List.length (Utf8.decode_eq_ok_iff.1 hdecode)
                    simp only [withinLimit_eq_ok_iff, Except.ok.injEq]
                    exact and_congr_right fun htext => by rw [hsize, htext]

/-! ## One input after the other -/

def stdinBehind (stdin : List UInt8) (front : List Input) : List UInt8 :=
  if .stdin ∈ front then [] else stdin

theorem stdinBehind_cons (stdin : List UInt8) (input : Input) (front : List Input) :
    stdinBehind stdin (input :: front) = stdinBehind (stdinAfter stdin input) front := by
  unfold stdinBehind
  cases input <;> simp [stdinAfter]

theorem length_stdinBehind_le (stdin : List UInt8) (front : List Input) :
    (stdinBehind stdin front).length ≤ stdin.length := by
  unfold stdinBehind
  split <;> simp

/-- `P` holds of each input and of the inputs before it. -/
def ForEach (P : List Input → Input → Prop) (inputs : List Input) : Prop :=
  ∀ front input back, inputs = front ++ input :: back → P front input

theorem forEach_nil (P : List Input → Input → Prop) : ForEach P [] := by
  intro front input back h
  simp at h

theorem forEach_cons {P : List Input → Input → Prop} {input : Input} {rest : List Input} :
    ForEach P (input :: rest) ↔ P [] input ∧ ForEach (fun front => P (input :: front)) rest := by
  constructor
  · intro h
    exact ⟨h [] input rest rfl, fun front other back hrest =>
      h (input :: front) other back (by rw [hrest, List.cons_append])⟩
  · rintro ⟨hfirst, hlater⟩ front other back hinputs
    cases front with
    | nil =>
        obtain ⟨rfl, -⟩ := List.cons.inj hinputs
        exact hfirst
    | cons _ front =>
        obtain ⟨rfl, hrest⟩ := List.cons.inj hinputs
        exact hlater front other back hrest

theorem ForEach.imp {P Q : List Input → Input → Prop} {inputs : List Input} (h : ForEach P inputs)
    (himp : ∀ front input, P front input → Q front input) : ForEach Q inputs :=
  fun front input back hinputs => himp front input (h front input back hinputs)

section ReadInputs

variable {files : Files} {limit : Nat} {stdin : List UInt8}

theorem readInputs_cons (input : Input) (rest : List Input) :
    readInputs files limit stdin (input :: rest) =
      match readInput files stdin limit input with
      | .error failure => .error failure
      | .ok script =>
        match readInputs files limit (stdinAfter stdin input) rest with
        | .error failure => .error failure
        | .ok later => .ok ((input, script) :: later) := by
  rw [readInputs]
  cases readInput files stdin limit input with
  | error failure => rfl
  | ok script => cases readInputs files limit (stdinAfter stdin input) rest <;> rfl

variable {inputs : List Input}

theorem readInputs_ok {scripts : List (Input × Text)}
    (h : readInputs files limit stdin inputs = .ok scripts) :
    scripts.length = inputs.length ∧
      ForEach (fun front input => ∃ script,
        readInput files (stdinBehind stdin front) limit input = .ok script ∧
          scripts[front.length]? = some (input, script)) inputs := by
  induction inputs generalizing stdin scripts with
  | nil =>
      obtain rfl : [] = scripts := Except.ok.inj h
      exact ⟨rfl, forEach_nil _⟩
  | cons input rest ih =>
      rw [readInputs_cons] at h
      cases hread : readInput files stdin limit input with
      | error failure =>
          rw [hread] at h
          contradiction
      | ok script =>
          cases hlater : readInputs files limit (stdinAfter stdin input) rest with
          | error failure =>
              rw [hread, hlater] at h
              contradiction
          | ok later =>
              rw [hread, hlater] at h
              obtain rfl : (input, script) :: later = scripts := Except.ok.inj h
              obtain ⟨hlength, heach⟩ := ih hlater
              refine ⟨congrArg (· + 1) hlength, forEach_cons.2 ⟨⟨script, hread, rfl⟩, ?_⟩⟩
              refine heach.imp fun front other hother => ?_
              rwa [stdinBehind_cons, List.length_cons, List.getElem?_cons_succ]

/-- The first input that cannot be read is the one that the failure is about. -/
theorem readInputs_error {failure : Failure}
    (h : readInputs files limit stdin inputs = .error failure) :
    ∃ front input back, inputs = front ++ input :: back ∧
      ForEach (fun earlier other => ∃ script,
        readInput files (stdinBehind stdin earlier) limit other = .ok script) front ∧
      readInput files (stdinBehind stdin front) limit input = .error failure := by
  induction inputs generalizing stdin with
  | nil => contradiction
  | cons input rest ih =>
      rw [readInputs_cons] at h
      cases hread : readInput files stdin limit input with
      | error other =>
          rw [hread] at h
          obtain rfl : other = failure := Except.error.inj h
          exact ⟨[], input, rest, rfl, forEach_nil _, hread⟩
      | ok script =>
          cases hlater : readInputs files limit (stdinAfter stdin input) rest with
          | ok later =>
              rw [hread, hlater] at h
              contradiction
          | error other =>
              rw [hread, hlater] at h
              obtain rfl : other = failure := Except.error.inj h
              obtain ⟨front, target, back, hrest, heach, hfails⟩ := ih hlater
              refine ⟨input :: front, target, back, congrArg (input :: ·) hrest,
                forEach_cons.2 ⟨⟨script, hread⟩, ?_⟩, ?_⟩
              · refine heach.imp fun earlier another hanother => ?_
                rwa [stdinBehind_cons]
              · rwa [stdinBehind_cons]

end ReadInputs

end SqlBatch
