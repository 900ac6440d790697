import N8n.Library.JavaScript
import N8n.Library.Unicode

/-! Messages between a worker and the documents it serves
(`packages/@n8n/crdt/src/protocol.ts`). In the server's format a message is its type and a
payload; the worker's format has the id of a document between them.
-/

namespace N8n.Crdt

open Unicode

/-- `Uint8Array`. -/
abbrev Bytes := List UInt8

def MESSAGE_SYNC : Nat := 0
def MESSAGE_AWARENESS : Nat := 1
def MESSAGE_SUBSCRIBE : Nat := 2
def MESSAGE_UNSUBSCRIBE : Nat := 3
def MESSAGE_CONNECTED : Nat := 4
def MESSAGE_DISCONNECTED : Nat := 5
def MESSAGE_INITIAL_SYNC : Nat := 6

namespace Bytes

/-- `new Uint8Array(length)`. -/
def zeros (length : Nat) : Bytes := List.replicate length 0

/-- `bytes.set(source, offset)`, for a source that fits in. -/
def write (bytes source : Bytes) (offset : Nat) : Bytes :=
  bytes.take offset ++ source ++ bytes.drop (offset + source.length)

/-- `bytes[index] = value`, which keeps the lowest eight bits. -/
def put (bytes : Bytes) (index value : Nat) : Bytes := bytes.set index (.ofNat value)

end Bytes

structure Message where
  messageType : Nat
  payload : Bytes
  deriving DecidableEq, Repr

structure DocMessage where
  messageType : Nat
  docId : List UInt16
  payload : Bytes
  deriving DecidableEq, Repr

def encodeMessage (messageType : Nat) (payload : Bytes) : Bytes :=
  Bytes.write (Bytes.put (Bytes.zeros (1 + payload.length)) 0 messageType) payload 1

def decodeMessage (data : Bytes) : Except JsError Message :=
  match data with
  | [] => .error (.error "Error" "Empty message" none)
  | first :: payload => .ok { messageType := first.toNat, payload }

def encodeWithDocId (messageType : Nat) (docId : List UInt16) (payload : Bytes) : Bytes :=
  let docIdBytes := encodeText docId
  let docIdLen := docIdBytes.length
  let result := Bytes.zeros (1 + 2 + docIdLen + payload.length)
  let result := Bytes.put result 0 messageType
  let result := Bytes.put result 1 ((docIdLen >>> 8) &&& 0xff)
  let result := Bytes.put result 2 (docIdLen &&& 0xff)
  let result := Bytes.write result docIdBytes 3
  Bytes.write result payload (3 + docIdLen)

def decodeWithDocId (data : Bytes) : Except JsError DocMessage :=
  match data with
  | first :: high :: low :: rest =>
      let docIdLen := (high.toNat <<< 8) ||| low.toNat
      if data.length < 3 + docIdLen then
        .error (.error "Error" "Message too short for declared docId length" none)
      else
        .ok
          {
            messageType := first.toNat
            docId := decodeText (rest.take docIdLen)
            payload := rest.drop docIdLen
          }
  | _ => .error (.error "Error" "Message too short to contain docId" none)

def stripDocId (data : Bytes) : Except JsError Bytes :=
  (decodeWithDocId data).map (fun message => encodeMessage message.messageType message.payload)

def addDocId (docId : List UInt16) (data : Bytes) : Except JsError Bytes :=
  (decodeMessage data).map (fun message =>
    encodeWithDocId message.messageType docId message.payload)

theorem encodeMessage_eq (messageType : Nat) (payload : Bytes)
    : encodeMessage messageType payload = .ofNat messageType :: payload := by
  simp [encodeMessage, Bytes.write, Bytes.put, Bytes.zeros, Nat.add_comm 1,
    List.replicate_succ]

/-- The two bytes of the length hold its lowest sixteen bits. -/
theorem encodeWithDocId_eq (messageType : Nat) (docId : List UInt16) (payload : Bytes)
    : encodeWithDocId messageType docId payload
      = .ofNat messageType :: .ofNat ((encodeText docId).length / 256 % 256)
          :: .ofNat ((encodeText docId).length % 256) :: (encodeText docId ++ payload) := by
  have high (length : Nat) : (length >>> 8) &&& 0xff = length / 256 % 256 := by
    rw [show 0xff = 2 ^ 8 - 1 from rfl, Nat.and_two_pow_sub_one_eq_mod,
      Nat.shiftRight_eq_div_pow]
  have low (length : Nat) : length &&& 0xff = length % 256 := by
    rw [show 0xff = 2 ^ 8 - 1 from rfl, Nat.and_two_pow_sub_one_eq_mod]
  unfold encodeWithDocId
  generalize encodeText docId = docIdBytes
  have zeros
      : Bytes.zeros (1 + 2 + docIdBytes.length + payload.length)
        = 0 :: 0 :: 0 :: (List.replicate docIdBytes.length 0
            ++ List.replicate payload.length 0) := by
    unfold Bytes.zeros
    rw [← List.replicate_add, show 1 + 2 + docIdBytes.length + payload.length
      = docIdBytes.length + payload.length + 1 + 1 + 1 by omega]
    rfl
  have written (first second third : UInt8)
      : Bytes.write
          (first :: second :: third :: (List.replicate docIdBytes.length 0
            ++ List.replicate payload.length 0))
          docIdBytes 3
        = first :: second :: third :: (docIdBytes ++ List.replicate payload.length 0) := by
    simp [Bytes.write, Nat.add_comm 3]
  have filled (first second third : UInt8)
      : Bytes.write (first :: second :: third :: (docIdBytes ++ List.replicate payload.length 0))
          payload (3 + docIdBytes.length)
        = first :: second :: third :: (docIdBytes ++ payload) := by
    simp [Bytes.write, Nat.add_comm 3, Nat.add_right_comm]
  simp only [zeros, high, low, Bytes.put, List.set_cons_zero, List.set_cons_succ, written, filled]

theorem decodeWithDocId_encodeWithDocId {messageType : Nat} (isByte : messageType < 256)
    (docId : List UInt16) (payload : Bytes)
    : decodeWithDocId (encodeWithDocId messageType docId payload)
      = .ok
          {
            messageType
            docId :=
              decodeText ((encodeText docId ++ payload).take ((encodeText docId).length % 65536))
            payload := (encodeText docId ++ payload).drop ((encodeText docId).length % 65536)
          } := by
  rw [encodeWithDocId_eq]
  generalize encodeText docId = docIdBytes
  have length
      : ((UInt8.ofNat (docIdBytes.length / 256 % 256)).toNat <<< 8)
          ||| (UInt8.ofNat (docIdBytes.length % 256)).toNat
        = docIdBytes.length % 65536 := by
    have byte (value : Nat) : (UInt8.ofNat (value % 256)).toNat = value % 256 :=
      UInt8.toNat_ofNat_of_lt' (Nat.mod_lt value (by decide))
    rw [byte, byte, ← Nat.shiftLeft_add_eq_or_of_lt (Nat.mod_lt _ (by decide)),
      Nat.shiftLeft_eq]
    omega
  unfold decodeWithDocId
  simp only [length, List.length_cons, List.length_append, UInt8.toNat_ofNat_of_lt' isByte]
  rw [if_neg (by omega)]

/-- The length of the id in UTF-8 fits into the field that is written for it. -/
def fitsLength (docId : List UInt16) : Prop := (encodeText docId).length < 65536

/-- Whether a document id is read back as it was written. -/
def isTransparent (docId : List UInt16) : Prop :=
  isWellFormed docId = true ∧ docId.head? ≠ some 0xFEFF ∧ fitsLength docId

theorem drop_length_mod_iff (docIdBytes payload : Bytes)
    : (docIdBytes ++ payload).drop (docIdBytes.length % 65536) = payload
      ↔ docIdBytes.length < 65536 := by
  constructor
  · intro same
    have lengths := congrArg List.length same
    simp only [List.length_drop, List.length_append] at lengths
    omega
  · intro fits
    rw [Nat.mod_eq_of_lt fits, List.drop_left]

/-- A message is decoded to what was encoded just when its document id is transparent. -/
theorem decodeWithDocId_eq_iff {messageType : Nat} (isByte : messageType < 256)
    (docId : List UInt16) (payload : Bytes)
    : decodeWithDocId (encodeWithDocId messageType docId payload)
        = .ok { messageType, docId, payload }
      ↔ isTransparent docId := by
  rw [decodeWithDocId_encodeWithDocId isByte]
  simp only [Except.ok.injEq, DocMessage.mk.injEq, true_and, drop_length_mod_iff]
  unfold isTransparent fitsLength
  constructor
  · rintro ⟨sameId, fits⟩
    rw [Nat.mod_eq_of_lt fits, List.take_left] at sameId
    obtain ⟨wellFormed, noMark⟩ := (decodeText_encodeText_iff docId).mp sameId
    exact ⟨wellFormed, noMark, fits⟩
  · rintro ⟨wellFormed, noMark, fits⟩
    rw [Nat.mod_eq_of_lt fits, List.take_left]
    exact ⟨(decodeText_encodeText_iff docId).mpr ⟨wellFormed, noMark⟩, fits⟩

/-- A message gets back its form without an id just when the id fits its length. -/
theorem stripDocId_addDocId_iff (docId : List UInt16) {data : Bytes} (notEmpty : data ≠ [])
    : (addDocId docId data).bind stripDocId = .ok data ↔ fitsLength docId := by
  cases data with
  | nil => exact absurd rfl notEmpty
  | cons first payload =>
      have decoded := decodeWithDocId_encodeWithDocId first.toNat_lt docId payload
      show (decodeWithDocId (encodeWithDocId first.toNat docId payload)).map _ = _ ↔ _
      rw [decoded]
      simp only [Except.map, encodeMessage_eq, UInt8.ofNat_toNat, Except.ok.injEq,
        List.cons.injEq, true_and, drop_length_mod_iff]
      rfl

/-- The wire format confuses no document and no payload, for the ids that are transparent;
where no id is attached in the end, for those that fit their length.
-/
theorem wireFormat_iff (docId : List UInt16)
    : (∀ messageType < 256, ∀ payload,
        decodeWithDocId (encodeWithDocId messageType docId payload)
            = .ok { messageType, docId, payload }
          ↔ isTransparent docId)
      ∧ ∀ data ≠ [], (addDocId docId data).bind stripDocId = .ok data ↔ fitsLength docId :=
  ⟨fun _ isByte payload => decodeWithDocId_eq_iff isByte docId payload,
    fun _ notEmpty => stripDocId_addDocId_iff docId notEmpty⟩

theorem length_encodeText_replicate (length : Nat)
    : (encodeText (List.replicate length 0x61)).length = length := by
  have chars : characters (List.replicate length 0x61) = List.replicate length 'a' := by
    induction length with
    | zero => rfl
    | succ length ih =>
        cases length with
        | zero => decide
        | succ rest =>
            rw [List.replicate_succ] at ih
            have next (others : List UInt16)
                : characters (0x61 :: 0x61 :: others) = 'a' :: characters (0x61 :: others) := rfl
            rw [List.replicate_succ, List.replicate_succ, next, ih]
            rfl
  unfold encodeText
  rw [chars]
  clear chars
  induction length with
  | zero => rfl
  | succ length ih =>
      show (utf8Char 'a' ++ utf8 (List.replicate length 'a')).length = _
      rw [List.length_append, ih, show (utf8Char 'a').length = 1 by decide, Nat.add_comm]

/-- The id of one document is taken for that of another one, and a long id for a part of the
payload.
-/
theorem wireFormat_confuses
    : decodeWithDocId (encodeWithDocId MESSAGE_SYNC [0xFEFF, 0x61] [1])
        = .ok { messageType := MESSAGE_SYNC, docId := [0x61], payload := [1] }
      ∧ (addDocId (List.replicate 65536 0x61) [0]).bind stripDocId ≠ .ok [0] := by
  refine ⟨by decide +kernel, ?_⟩
  intro same
  have fits := (stripDocId_addDocId_iff _ (by simp)).mp same
  unfold fitsLength at fits
  rw [length_encodeText_replicate] at fits
  omega

end N8n.Crdt
