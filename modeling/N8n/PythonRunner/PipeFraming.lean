import N8n.PythonRunner.PipeMessages

/-! The reader at one end of the pipe gets what the writer puts in at the other, however both are
cut into chunks, and an error when the writer stops early.
-/

namespace N8n.PythonRunner

open N8n.ByteStreams

variable {codec : JsonCodec} {put : PutCall} {stream : List UInt8}

/-- A message as it stands in the pipe. -/
def framed (codec : JsonCodec) (put : PutCall) : List UInt8 :=
  bigEndian PIPE_MSG_PREFIX_LENGTH (codec.dumps put.message).length ++ codec.dumps put.message

theorem writeBytes_ok (chunks : Chunks) (call : Nat) (data : List UInt8)
    : ∃ next, writeBytes chunks call data = .ok (data, next) := by
  obtain ⟨next, written⟩ := writeAll_ok chunks call data
  exact ⟨next, by rw [writeBytes, written]; rfl⟩

/-- The writer leaves the framed message. -/
theorem put_eq_framed (chunks : Chunks)
    (fits : (codec.dumps put.message).length < 256 ^ PIPE_MSG_PREFIX_LENGTH)
    : put.put codec chunks = .ok (framed codec put) := by
  obtain ⟨call, lengthWritten⟩ :=
    writeBytes_ok chunks 0 (bigEndian PIPE_MSG_PREFIX_LENGTH (codec.dumps put.message).length)
  obtain ⟨next, dataWritten⟩ := writeBytes_ok chunks call (codec.dumps put.message)
  unfold PutCall.put
  simp only [lengthBytes, if_pos fits]
  change (writeBytes chunks 0 _ >>= _) = _
  rw [lengthWritten]
  change (writeBytes chunks call _ >>= _) = _
  rw [dataWritten]
  rfl

namespace PipeReader

theorem readExactBytes_append (chunks : Chunks) (call : Nat) (bytes rest : List UInt8)
    : ∃ next,
        readExactBytes chunks call (bytes ++ rest) bytes.length = .ok (bytes, next, rest) := by
  obtain ⟨next, found⟩ := readExact_ok chunks call []
    (by simp : bytes.length - 0 ≤ (bytes ++ rest).length) (Nat.zero_le _)
  rw [List.length_nil, Nat.sub_zero, List.nil_append, List.take_left, List.drop_left] at found
  exact ⟨next, by rw [readExactBytes, found]; rfl⟩

theorem readExactBytes_short (chunks : Chunks) (call : Nat) {n : Nat} (short : stream.length < n)
    : readExactBytes chunks call stream n = .error .closed := by
  rw [readExactBytes, readExact_short chunks call [] short]
  rfl

end PipeReader

/-- The messages that are put into a pipe are those that the reader takes. -/
theorem validatePipeMessage_message (put : PutCall)
    : PipeReader.validatePipeMessage put.message = .ok put.message := by
  cases put with
  | _ => rfl

theorem dumps_length_pos (inverse : codec.loads (codec.dumps put.message) = some put.message)
    (nothing : codec.loads [] = none)
    : 0 < (codec.dumps put.message).length := by
  rw [List.length_pos_iff]
  intro empty
  rw [empty, nothing] at inverse
  contradiction

/-- What the reader makes of a stream that starts with the length of a message. -/
theorem run_eq (chunks : Chunks) {length : Nat} (positive : 0 < length)
    (fits : length < 256 ^ PIPE_MSG_PREFIX_LENGTH) (stream : List UInt8)
    : ∃ call,
        PipeReader.run codec chunks (bigEndian PIPE_MSG_PREFIX_LENGTH length ++ stream)
        = PipeReader.readMessage codec chunks call stream length := by
  obtain ⟨call, lengthRead⟩ :=
    PipeReader.readExactBytes_append chunks 0 (bigEndian PIPE_MSG_PREFIX_LENGTH length) stream
  rw [length_bigEndian] at lengthRead
  refine ⟨call, ?_⟩
  rw [PipeReader.run, lengthRead]
  simp only [fromBigEndian_bigEndian fits, if_neg (Nat.ne_of_gt positive)]

section

variable (chunks : Chunks) (inverse : codec.loads (codec.dumps put.message) = some put.message)
  (nothing : codec.loads [] = none)
  (fits : (codec.dumps put.message).length < 256 ^ PIPE_MSG_PREFIX_LENGTH)

include chunks inverse nothing fits

/-- The reader of a framed message has the message, and the length of its text. -/
theorem run_framed
    : PipeReader.run codec chunks (framed codec put)
      = ⟨some put.message, some (codec.dumps put.message).length, none⟩ := by
  obtain ⟨call, result⟩ := run_eq chunks (dumps_length_pos inverse nothing) fits
    (codec.dumps put.message)
  obtain ⟨next, dataRead⟩ :=
    PipeReader.readExactBytes_append chunks call (codec.dumps put.message) []
  rw [List.append_nil] at dataRead
  rw [framed, result, PipeReader.readMessage, dataRead]
  simp only [inverse, validatePipeMessage_message]

/-- The reader of a part of a framed message ends with an error. -/
theorem run_part {part : List UInt8} (isPart : part <+: framed codec put)
    (notWhole : part ≠ framed codec put)
    : (PipeReader.run codec chunks part).error = some .closed
      ∧ (PipeReader.run codec chunks part).pipe_message = none := by
  by_cases short : part.length < PIPE_MSG_PREFIX_LENGTH
  · rw [PipeReader.run, PipeReader.readExactBytes_short chunks 0 short]
    exact ⟨rfl, rfl⟩
  · have lengthFirst
        : bigEndian PIPE_MSG_PREFIX_LENGTH (codec.dumps put.message).length <+: part :=
      List.prefix_of_prefix_length_le (List.prefix_append _ _) isPart
        (by rw [length_bigEndian]; omega)
    obtain ⟨behind, rfl⟩ := lengthFirst
    obtain ⟨rest, split⟩ := isPart
    rw [framed, List.append_assoc, List.append_cancel_left_eq] at split
    have missing : behind.length < (codec.dumps put.message).length := by
      rw [← split, List.length_append]
      have nonempty : rest ≠ [] := by
        rintro rfl
        rw [List.append_nil] at split
        exact notWhole (by rw [framed, split])
      have positive := List.length_pos_iff.mpr nonempty
      omega
    obtain ⟨call, result⟩ := run_eq chunks (dumps_length_pos inverse nothing) fits behind
    rw [result, PipeReader.readMessage, PipeReader.readExactBytes_short chunks call missing]
    exact ⟨rfl, rfl⟩

end

/-- However writes and reads are cut into chunks, the reader of a put message has the message and
the length of its text, and the reader of a part of it ends with an error and without a message.
-/
theorem reader_of_put (writes reads : Chunks)
    (inverse : codec.loads (codec.dumps put.message) = some put.message)
    (nothing : codec.loads [] = none)
    (fits : (codec.dumps put.message).length < 256 ^ PIPE_MSG_PREFIX_LENGTH)
    : ∃ bytes,
        put.put codec writes = .ok bytes
        ∧ PipeReader.run codec reads bytes
          = ⟨some put.message, some (codec.dumps put.message).length, none⟩
        ∧ ∀ part,
            part <+: bytes
            → part ≠ bytes
            → (PipeReader.run codec reads part).error.isSome = true
              ∧ (PipeReader.run codec reads part).pipe_message = none := by
  refine ⟨framed codec put, put_eq_framed writes fits, run_framed reads inverse nothing fits, ?_⟩
  intro part isPart notWhole
  obtain ⟨closed, empty⟩ := run_part reads inverse nothing fits isPart notWhole
  exact ⟨by rw [closed]; rfl, empty⟩

/-- A task without a result and without output. -/
def emptyResult : PutCall := .result .null []

/-- Its text as `json.dumps` writes it and `json.loads` reads it. -/
def emptyResultCodec : JsonCodec :=
  let text := "\x7b\"result\": null, \"print_args\": []\x7d".toList.map (fun char =>
    UInt8.ofNat char.toNat)
  ⟨fun _ => text, fun data => if data = text then some emptyResult.message else none⟩

theorem reader_of_emptyResult
    : ∃ bytes,
        emptyResult.put emptyResultCodec ⟨fun _ => 5, fun _ => Nat.succ_pos _⟩ = .ok bytes
        ∧ PipeReader.run emptyResultCodec ⟨fun call => call + 1, Nat.succ_pos⟩ bytes
          = ⟨some emptyResult.message, some 34, none⟩
        ∧ ∀ part,
            part <+: bytes
            → part ≠ bytes
            → (PipeReader.run emptyResultCodec ⟨fun call => call + 1, Nat.succ_pos⟩ part).error.isSome
                = true
              ∧ (PipeReader.run emptyResultCodec ⟨fun call => call + 1, Nat.succ_pos⟩ part).pipe_message
                = none :=
  reader_of_put _ _ rfl rfl (by decide)

end N8n.PythonRunner
