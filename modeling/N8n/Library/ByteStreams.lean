import Mathlib.Algebra.Order.Ring.Nat
import Mathlib.Data.List.TakeDrop

/-! Streams of bytes that are written and read in chunks, and numbers as bytes. -/

namespace N8n.ByteStreams

/-- The last `width` bytes of a number, the highest one first. -/
def bigEndian : Nat → Nat → List UInt8
  | 0, _ => []
  | width + 1, number => bigEndian width (number / 256) ++ [UInt8.ofNat number]

/-- `int.from_bytes(bytes, "big")`. -/
def fromBigEndian (bytes : List UInt8) : Nat :=
  bytes.foldl (fun number byte => number * 256 + byte.toNat) 0

@[simp] theorem length_bigEndian {width number : Nat}
    : (bigEndian width number).length = width := by
  induction width generalizing number with
  | zero => rfl
  | succ width ih => simp [bigEndian, ih]

/-- A number that fits is read back from its bytes. -/
theorem fromBigEndian_bigEndian {width number : Nat} (fits : number < 256 ^ width)
    : fromBigEndian (bigEndian width number) = number := by
  induction width generalizing number with
  | zero =>
      have zero : number = 0 := by simpa using fits
      rw [zero]
      rfl
  | succ width ih =>
      have high : number / 256 < 256 ^ width := by
        apply Nat.div_lt_of_lt_mul
        rwa [pow_succ, Nat.mul_comm] at fits
      have low : (UInt8.ofNat number).toNat = number % 256 := UInt8.toNat_ofNat'
      have front : (bigEndian width (number / 256)).foldl
          (fun number byte => number * 256 + byte.toNat) 0 = number / 256 := ih high
      rw [fromBigEndian, bigEndian, List.foldl_append, front, List.foldl_cons, List.foldl_nil, low]
      omega

/-- How much the calls to the operating system take at most, each at least one byte. -/
structure Chunks where
  size : Nat → Nat
  positive : ∀ call, 0 < size call

inductive StreamError where
  | writeFailed
  | endOfStream
deriving DecidableEq

/-- Writes the data from the given call on: what arrives, and the next call. -/
def writeAll (chunks : Chunks) (call : Nat) (data : List UInt8)
    : Except StreamError (List UInt8 × Nat) :=
  match data with
  | [] => .ok ([], call)
  | first :: rest =>
      let written := min (chunks.size call) (first :: rest).length
      if written = 0 then .error .writeFailed
      else
        match writeAll chunks (call + 1) ((first :: rest).drop written) with
        | .error error => .error error
        | .ok (arrived, next) => .ok ((first :: rest).take written ++ arrived, next)
termination_by data.length
decreasing_by
  simp only [List.length_drop, List.length_cons] at *
  omega

/-- Reads until `result` has `count` bytes: the bytes, the next call and the rest of the stream. -/
def readExact (chunks : Chunks) (call : Nat) (stream : List UInt8) (count : Nat)
    (result : List UInt8)
    : Except StreamError (List UInt8 × Nat × List UInt8) :=
  if result.length < count then
    match stream with
    | [] => .error .endOfStream
    | first :: rest =>
        let taken := min (chunks.size call) (count - result.length)
        if taken = 0 then .error .endOfStream
        else
          readExact chunks (call + 1) ((first :: rest).drop taken) count
            (result ++ (first :: rest).take taken)
  else .ok (result, call, stream)
termination_by count - result.length
decreasing_by
  simp only [List.length_append, List.length_take, List.length_cons]
  omega

/-- However it is cut into chunks, all of the data arrives. -/
theorem writeAll_ok (chunks : Chunks) (call : Nat) (data : List UInt8)
    : ∃ next, writeAll chunks call data = .ok (data, next) := by
  fun_induction writeAll chunks call data with
  | case1 call => exact ⟨call, rfl⟩
  | case2 call first rest written zero =>
      have positive := chunks.positive call
      simp only [written, List.length_cons] at zero
      omega
  | case3 call first rest written some error failed ih =>
      obtain ⟨next, later⟩ := ih
      rw [later] at failed
      contradiction
  | case4 call first rest written some arrived next done ih =>
      obtain ⟨_, later⟩ := ih
      rw [later] at done
      cases done
      exact ⟨_, by rw [List.take_append_drop]⟩

section

variable (chunks : Chunks) (call : Nat) (result : List UInt8) {stream : List UInt8} {count : Nat}

include chunks call result

/-- However the stream is cut into chunks, as many bytes are read as are asked for. -/
theorem readExact_ok (enough : count - result.length ≤ stream.length)
    (within : result.length ≤ count)
    : ∃ next,
        readExact chunks call stream count result
        = .ok (result ++ stream.take (count - result.length), next,
            stream.drop (count - result.length)) := by
  fun_induction readExact chunks call stream count result with
  | case1 call result missing =>
      rw [List.length_nil] at enough
      omega
  | case2 call result missing first rest taken zero =>
      have positive := chunks.positive call
      omega
  | case3 call result missing first rest taken some ih =>
      have part : taken ≤ count - result.length := Nat.min_le_right _ _
      have got : ((first :: rest).take taken).length = taken := by
        rw [List.length_take]
        omega
      have left
          : count - (result ++ (first :: rest).take taken).length
            = count - result.length - taken := by
        rw [List.length_append, got]
        omega
      have whole : count - result.length = taken + (count - result.length - taken) := by omega
      rw [left] at ih
      obtain ⟨next, later⟩ := ih
        (by rw [List.length_drop]; omega) (by rw [List.length_append, got]; omega)
      refine ⟨next, ?_⟩
      rw [later, List.append_assoc, List.drop_drop, ← List.take_add, ← whole]
  | case4 call stream result complete =>
      have none : count - result.length = 0 := by omega
      exact ⟨call, by simp [none]⟩

/-- A stream that is too short ends before everything is read. -/
theorem readExact_short (short : stream.length < count - result.length)
    : readExact chunks call stream count result = .error .endOfStream := by
  fun_induction readExact chunks call stream count result with
  | case3 call result missing first rest taken some ih =>
      apply ih
      rw [List.length_drop, List.length_append, List.length_take]
      have part : taken ≤ count - result.length := Nat.min_le_right _ _
      omega
  | case4 call stream result complete => omega
  | _ => rfl

end

end N8n.ByteStreams
