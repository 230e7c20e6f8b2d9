import SqlBatch.Script
import SqlBatch.Stream
import SqlBatch.Proofs.Scanner.Queue
import SqlBatch.Proofs.Text.Utf8
/-!
# Streams and scripts

A stream gives the statements of the script that its bytes spell, one a call, up to the first read
that fails (`answers_ofBytes`).  `toCome` is what a stream has still to give: `next_eq` says that
each call takes the first of it.
-/

namespace SqlBatch

open Text

/-! ## Line ends -/

namespace Scanner

@[simp] theorem feed_trimEnd (s : Scanner) (raw : Text) : s.feed (trimEnd raw) = s.feed raw := by
  simp only [feed, feedComment, feedDirective, append, trim_trimEnd, trimEnd_trimEnd]

theorem feed_append_blank (s : Scanner) {w : Text} (hw : AllBlank w) (raw : Text) :
    s.feed (raw ++ w) = s.feed raw := by
  rw [← feed_trimEnd, trimEnd_append_blank hw, feed_trimEnd]

private theorem feed_dropLineEnd (s : Scanner) (chunk : Text) :
    s.feed (dropLineEnd chunk) = s.feed chunk := by
  cases hfeed : ['\n'].isSuffixOf? chunk with
  | none => rw [dropLineEnd, hfeed]
  | some line =>
      obtain ⟨w, hw, hline⟩ := exists_eq_append_of_dropReturn line
      have hchunk : chunk = (['\r'].isSuffixOf? line).getD line ++ (w ++ ['\n']) := by
        rw [← List.append_assoc, ← hline]
        exact (List.isSuffixOf?_eq_some_iff_append_eq.1 hfeed).symm
      have hblank : AllBlank (w ++ ['\n']) := allBlank_append.2 ⟨hw, by decide⟩
      conv_rhs => rw [hchunk, feed_append_blank s hblank]
      rw [dropLineEnd, hfeed]

end Scanner

namespace Stream

/-- A text without any line feeds and carriage returns at its end. -/
def dropLineEnds (text : Text) : Text :=
  (text.reverse.dropWhile fun c => c == '\n' || c == '\r').reverse

theorem feed_dropLineEnds (s : Scanner) (text : Text) :
    s.feed (dropLineEnds text) = s.feed text := by
  have hw : AllBlank (text.reverse.takeWhile fun c => c == '\n' || c == '\r').reverse := by
    intro c hc
    have hend := List.mem_takeWhile_imp (List.mem_reverse.1 hc)
    simp only [Bool.or_eq_true, beq_iff_eq] at hend
    rcases hend with rfl | rfl <;> decide
  have htext : text = dropLineEnds text ++
      (text.reverse.takeWhile fun c => c == '\n' || c == '\r').reverse := by
    rw [dropLineEnds, ← List.reverse_append, List.takeWhile_append_dropWhile,
      List.reverse_reverse]
  conv_rhs => rw [htext, Scanner.feed_append_blank s hw]

/-! ## Call by call -/

def answers (s : Stream) : Nat → List (Option (Except ReadError Statement))
  | 0 => []
  | n + 1 => s.next.1 :: s.next.2.answers n

/-- The answers of `n` calls that give these items and then nothing more. -/
def given (items : List (Except ReadError Statement)) (n : Nat) :
    List (Option (Except ReadError Statement)) :=
  (items.map some ++ List.replicate n none).take n

private theorem given_succ (items : List (Except ReadError Statement)) (n : Nat) :
    given items (n + 1) = items.head? :: given items.tail n := by
  cases items with
  | nil => simp [given, List.replicate_succ]
  | cons item items =>
      have hreplicate : List.replicate (n + 1) (none : Option (Except ReadError Statement)) =
          List.replicate n none ++ [none] := List.replicate_succ'
      have hlength : n ≤ (items.map some ++ List.replicate n none).length := by simp
      simp only [given, List.map_cons, List.cons_append, List.take_succ_cons, hreplicate,
        ← List.append_assoc, List.take_append_of_le_length hlength]
      rfl

def unread (ending : SourceEnd) (s : Scanner) :
    List (List UInt8) → List (Except ReadError Statement)
  | [] =>
    match ending with
    | .clean => s.finish.ready.map .ok
    | .failed message => s.ready.map .ok ++ [.error (.source message)]
  | chunk :: chunks =>
    match readChunk ending chunk with
    | .error error => s.ready.map .ok ++ [.error error]
    | .ok line => unread ending (s.feed line) chunks

def toCome (s : Stream) : List (Except ReadError Statement) :=
  if s.ended then s.scanner.ready.map .ok else unread s.ending s.scanner s.chunks

theorem unread_queuedAfter (ending : SourceEnd) (s : Scanner) (front : List Statement)
    (chunks : List (List UInt8)) :
    unread ending (s.queuedAfter front) chunks = front.map .ok ++ unread ending s chunks := by
  induction chunks generalizing s with
  | nil =>
      cases ending with
      | clean => simp [unread, Scanner.finish_queuedAfter]
      | failed message => simp [unread]
  | cons chunk chunks ih =>
      rw [unread, unread]
      cases readChunk ending chunk with
      | error error => simp
      | ok line => simp only [Scanner.feed_queuedAfter, ih]

theorem toCome_of_ready {s : Stream} {statement : Statement} {later : List Statement}
    (h : s.scanner.ready = statement :: later) :
    s.toCome = .ok statement :: toCome { s with scanner := { s.scanner with ready := later } } := by
  have hscanner :
      s.scanner = Scanner.queuedAfter { s.scanner with ready := later } [statement] := by
    rw [Scanner.queuedAfter, List.singleton_append, ← h]
  unfold toCome
  by_cases hended : s.ended = true
  · simp [hended, h]
  · rw [if_neg hended, if_neg hended]
    conv_lhs => rw [hscanner, unread_queuedAfter]
    rfl

/-- Each call gives the first of what is to come. -/
theorem next_eq (s : Stream) :
    s.next.1 = s.toCome.head? ∧ s.next.2.toCome = s.toCome.tail := by
  fun_induction next s with
  | case1 s statement later hready =>
      rw [toCome_of_ready hready]
      exact ⟨rfl, rfl⟩
  | case2 s hready hended =>
      have hnone : s.toCome = [] := by rw [toCome, if_pos hended, hready, List.map_nil]
      rw [hnone]
      exact ⟨rfl, rfl⟩
  | case3 s hready hended hchunks message hending =>
      have hone : s.toCome = [.error (.source message)] := by
        rw [toCome, if_neg hended, hchunks, hending, unread, hready]
        rfl
      rw [hone]
      refine ⟨rfl, ?_⟩
      rw [toCome, if_pos rfl, hready]
      rfl
  | case4 s hready hended hchunks hending ih =>
      have hsame : s.toCome = toCome { s with scanner := s.scanner.finish, ended := true } := by
        rw [toCome, toCome, if_neg hended, if_pos rfl, hchunks, hending, unread]
      rw [hsame]
      exact ih
  | case5 s hready hended chunk chunks hchunks error hread =>
      have hone : s.toCome = [.error error] := by
        rw [toCome, if_neg hended, hchunks, unread, hread, hready]
        rfl
      rw [hone]
      refine ⟨rfl, ?_⟩
      rw [toCome, if_pos rfl, hready]
      rfl
  | case6 s hready hended chunk chunks hchunks line hread ih =>
      have hsame : s.toCome = toCome { s with scanner := s.scanner.feed line, chunks } := by
        rw [toCome, toCome, if_neg hended, if_neg hended, hchunks, unread, hread]
      rw [hsame]
      exact ih

theorem answers_eq_given (s : Stream) (n : Nat) : s.answers n = given s.toCome n := by
  induction n generalizing s with
  | zero => rfl
  | succ n ih =>
      obtain ⟨hhead, htail⟩ := next_eq s
      rw [answers, hhead, ih, htail, given_succ]

/-! ## Read by read -/

/-- How a read fails: the source fails before the line feed of a chunk, or the chunk is not UTF-8.
The read at the end of the bytes finds an empty chunk. -/
def failure? (ending : SourceEnd) (chunk : List UInt8) : Option ReadError :=
  match ending, chunk.getLast? == some 10, Utf8.decode chunk with
  | .failed message, false, _ => some (.source message)
  | _, _, .error _ => some .notUtf8
  | _, _, .ok _ => none

private theorem readChunk_of_failure {ending : SourceEnd} {chunk : List UInt8} {error : ReadError}
    (h : failure? ending chunk = some error) : readChunk ending chunk = .error error := by
  unfold failure? at h
  unfold readChunk line?
  cases ending with
  | clean => cases hdecode : Utf8.decode chunk <;> simp_all
  | failed message =>
      cases hlast : chunk.getLast? == some 10 <;> cases hdecode : Utf8.decode chunk <;> simp_all

private theorem readChunk_of_success {ending : SourceEnd} {chunk : List UInt8}
    (h : failure? ending chunk = none) :
    ∃ text, Utf8.decode chunk = .ok text ∧
      readChunk ending chunk = .ok (dropLineEnds text) := by
  unfold failure? at h
  unfold readChunk line?
  cases ending with
  | clean => cases hdecode : Utf8.decode chunk <;> simp_all [dropLineEnds]
  | failed message =>
      cases hlast : chunk.getLast? == some 10 <;> cases hdecode : Utf8.decode chunk <;>
        simp_all [dropLineEnds]

def reads (bytes : List UInt8) : List (List UInt8) := Text.chunks (· == 10) bytes ++ [[]]

def GoesThrough (ending : SourceEnd) (reads : List (List UInt8)) : Prop :=
  ∀ chunk ∈ reads, failure? ending chunk = none

/-- The first read that fails does so with the error, and the reads before it give the texts. -/
def BreaksOff (ending : SourceEnd) (reads : List (List UInt8)) (texts : List Text)
    (error : ReadError) : Prop :=
  ∃ before chunk later, reads = before ++ chunk :: later ∧
    before.map Utf8.decode = texts.map .ok ∧
    (∀ earlier ∈ before, failure? ending earlier = none) ∧ failure? ending chunk = some error

theorem BreaksOff.cons {ending : SourceEnd} {reads : List (List UInt8)} {texts : List Text}
    {error : ReadError} (h : BreaksOff ending reads texts error) {chunk : List UInt8} {text : Text}
    (hdecode : Utf8.decode chunk = .ok text) (hnone : failure? ending chunk = none) :
    BreaksOff ending (chunk :: reads) (text :: texts) error := by
  obtain ⟨before, failing, later, hreads, hdecodes, hbefore, hfailing⟩ := h
  refine ⟨chunk :: before, failing, later, by rw [hreads, List.cons_append], ?_, ?_, hfailing⟩
  · rw [List.map_cons, List.map_cons, hdecode, hdecodes]
  · exact List.forall_mem_cons.2 ⟨hnone, hbefore⟩

/-- All lines are fed, or those before the first read that fails. -/
theorem unread_cases (ending : SourceEnd) (s : Scanner) (chunks : List (List UInt8)) :
    (GoesThrough ending (chunks ++ [[]]) ∧ ∃ texts : List Text,
      chunks.map Utf8.decode = texts.map .ok ∧
      unread ending s chunks = (s.feedAll (texts.map dropLineEnd)).finish.ready.map .ok) ∨
    ∃ texts error, BreaksOff ending (chunks ++ [[]]) texts error ∧
      unread ending s chunks =
        (s.feedAll (texts.map dropLineEnd)).ready.map .ok ++ [.error error] := by
  induction chunks generalizing s with
  | nil =>
      cases ending with
      | clean =>
          have hnone : failure? .clean [] = none := rfl
          exact .inl ⟨List.forall_mem_singleton.2 hnone, [], rfl, rfl⟩
      | failed message =>
          exact .inr ⟨[], .source message, ⟨[], [], [], rfl, rfl, by simp, rfl⟩, rfl⟩
  | cons chunk chunks ih =>
      cases hfails : failure? ending chunk with
      | some error =>
          refine .inr ⟨[], error, ⟨[], chunk, chunks ++ [[]], rfl, rfl, by simp, hfails⟩, ?_⟩
          rw [unread, readChunk_of_failure hfails]
          rfl
      | none =>
          obtain ⟨text, hdecode, hread⟩ := readChunk_of_success hfails
          have hfeed : unread ending s (chunk :: chunks) =
              unread ending (s.feed (dropLineEnd text)) chunks := by
            rw [unread, hread, Scanner.feed_dropLineEnd, ← feed_dropLineEnds]
          rcases ih (s.feed (dropLineEnd text)) with
            ⟨hthrough, texts, hdecodes, hunread⟩ | ⟨texts, error, hbreaks, hunread⟩
          · refine .inl ⟨List.forall_mem_cons.2 ⟨hfails, hthrough⟩, text :: texts, ?_, ?_⟩
            · rw [List.map_cons, List.map_cons, hdecode, hdecodes]
            · rw [hfeed, hunread]
              rfl
          · refine .inr ⟨text :: texts, error, hbreaks.cons hdecode hfails, ?_⟩
            rw [hfeed, hunread]
            rfl

/-- The texts of the chunks make up the script, whose lines they hold. -/
theorem decode_of_chunks {bytes : List UInt8} {texts : List Text}
    (h : (Text.chunks (· == 10) bytes).map Utf8.decode = texts.map .ok) :
    Utf8.decode bytes = .ok texts.flatten ∧ lines texts.flatten = texts.map dropLineEnd := by
  have hchunks : Text.chunks (· == 10) bytes = texts.map Utf8.encode := by
    generalize Text.chunks (· == 10) bytes = chunks at h
    induction chunks generalizing texts with
    | nil =>
        obtain rfl : texts = [] := by simpa using h
        rfl
    | cons chunk chunks ih =>
        obtain ⟨text, texts, rfl⟩ := List.exists_cons_of_ne_nil
          (show texts ≠ [] by rintro rfl; contradiction)
        rw [List.map_cons, List.map_cons, List.cons.injEq] at h
        rw [List.map_cons, Utf8.decode_eq_ok_iff.1 h.1, ih h.2]
  have hbytes : bytes = Utf8.encode texts.flatten := by
    rw [← flatten_chunks (· == 10) bytes, hchunks, Utf8.encode_flatten]
  refine ⟨Utf8.decode_eq_ok_iff.2 hbytes, ?_⟩
  rw [hbytes, Utf8.chunks_encode] at hchunks
  rw [lines, List.map_injective_iff.2 (fun _ _ => Utf8.encode_injective) hchunks]

/-- A stream gives the statements of the script that its bytes spell.  Where a read fails, it gives
those that are complete before it, then the failure.  After that it gives nothing more. -/
theorem answers_ofBytes (bytes : List UInt8) (ending : SourceEnd) :
    (GoesThrough ending (reads bytes) ∧ ∃ script, Utf8.decode bytes = .ok script ∧
      ∀ n, (ofBytes bytes ending).answers n = given ((split script).map .ok) n) ∨
    ∃ texts error, BreaksOff ending (reads bytes) texts error ∧
      ∀ n, (ofBytes bytes ending).answers n =
        given ((({} : Scanner).feedAll (texts.map dropLineEnd)).ready.map .ok ++ [.error error])
          n := by
  have hcome : (ofBytes bytes ending).toCome =
      unread ending {} (Text.chunks (· == 10) bytes) := rfl
  rcases unread_cases ending {} (Text.chunks (· == 10) bytes) with
    ⟨hthrough, texts, hdecodes, hunread⟩ | ⟨texts, error, hbreaks, hunread⟩
  · obtain ⟨hscript, hlines⟩ := decode_of_chunks hdecodes
    refine .inl ⟨hthrough, texts.flatten, hscript, fun n => ?_⟩
    rw [answers_eq_given, hcome, hunread, split, hlines]
  · refine .inr ⟨texts, error, hbreaks, fun n => ?_⟩
    rw [answers_eq_given, hcome, hunread]

end Stream
end SqlBatch
