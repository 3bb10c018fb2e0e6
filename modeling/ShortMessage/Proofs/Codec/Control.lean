import ShortMessage.Control.Message
import ShortMessage.Proofs.Codec.Relay

/-!
# Messages of the control layer are read back

What is written of a control message whose transaction has a value of three bits is read as the same
message, but for the cause of an error, which is read from its octet (`Message.ofOctets_of_encode`).
Data takes any payload of at most 248 octets, and no relay message is longer:
`Message.carried_of_encode` follows a relay message all the way down and up again.
-/

namespace ShortMessage.Control

open Decoder

/-- Of an identifier three bits of the value travel. -/
theorem TransactionId.ofOctet_octet {t : TransactionId} (h : t.value ≤ 7) :
    ofOctet t.octet = .ok t := by
  have hall : ∀ (flag : Bool) (value : UInt8), value ≤ 7 →
      (Bits.flag flag 0x80 ||| (value &&& 0x07) <<< 4 ||| discriminator) &&& 0x0F =
        discriminator ∧
      Bits.has (Bits.flag flag 0x80 ||| (value &&& 0x07) <<< 4 ||| discriminator) 0x80 = flag ∧
      (Bits.flag flag 0x80 ||| (value &&& 0x07) <<< 4 ||| discriminator) >>> 4 &&& 0x07 =
        value := by
    decide +kernel
  obtain ⟨hlow, hflag, hvalue⟩ := hall t.flag t.value h
  unfold ofOctet octet
  rw [if_pos hlow, hflag, hvalue]

namespace Message

variable {m : Message} {t : TransactionId} {payload s : Octets}

/-- A message as a reader finds it. -/
def reread : Message → Message
  | .data t payload => .data t payload
  | .ack t => .ack t
  | .error t cause => .error t (Cause.ofCode cause.code)

theorem encode_data : encode (.data t payload) = .ok s ↔ payload.length ≤ maxPayload ∧
    s = t.octet :: dataType :: UInt8.ofNat payload.length :: payload := by
  unfold encode checkPayload
  rw [bind_eq_ok]
  split
  · rename_i hle
    exact ⟨fun ⟨_, _, h⟩ => ⟨hle, (Except.ok.inj h).symm⟩, fun h => ⟨(), rfl, h.2 ▸ rfl⟩⟩
  · rename_i hle
    exact ⟨nofun, fun h => absurd h.1 hle⟩

/-- What is written of a message is read as a reader finds it. -/
theorem ofOctets_of_encode (h : m.encode = .ok s) (ht : m.transaction.value ≤ 7) :
    ofOctets s = .ok m.reread := by
  have hfirst (type : UInt8) {rest : Octets} {f : TransactionId → Decoder Message}
      (hf : ReadsAll (f m.transaction) (type :: rest) m.reread) :
      ReadsAll (octet >>= fun b => Decoder.ofExcept (TransactionId.ofOctet b) >>= f)
        (m.transaction.octet :: type :: rest) m.reread :=
    Reads.bind_all (reads_octet _) (Reads.bind_all (s := [])
      (reads_ofExcept (TransactionId.ofOctet_octet ht)) hf)
  refine ReadsAll.complete ?_
  cases m with
  | data t payload =>
    obtain ⟨hle, rfl⟩ := encode_data.1 h
    have hcheck : checkPayload payload = .ok () := if_pos hle
    exact hfirst dataType (Reads.bind_all (reads_octet dataType) (Reads.last_all
      (reads_block (Nat.lt_of_le_of_lt hle (by decide))) (Reads.last_all
        (reads_ofExcept hcheck) (reads_pure _).all)))
  | ack t =>
    cases h
    exact hfirst ackType (Reads.bind_all (reads_octet ackType) (reads_pure _).all)
  | error t cause =>
    cases h
    exact hfirst errorType (Reads.bind_all (reads_octet errorType)
      ((reads_octet _).last_all (reads_pure _).all))

/-- Every relay message that can be written travels in data: it is no longer than data may be, and
at the other end the same transaction and payload are read, and of the payload what a reader finds
of the message. -/
theorem carried_of_encode {r : Relay.Message} (ht : t.value ≤ 7) (h : r.encode = .ok payload) :
    payload.length ≤ maxPayload ∧ carrying t r = .ok (.data t payload) ∧
      (∃ s, encode (.data t payload) = .ok s ∧ ofOctets s = .ok (.data t payload)) ∧
      Relay.Message.ofOctets payload = .ok r.reread ∧
      r.reread.label = r.label ∧ r.reread.direction = r.direction ∧
      r.reread.reference = r.reference ∧ r.reread.isRequest = r.isRequest := by
  have hlength := Relay.Message.length_encode h
  have halike := r.alike_reread
  have hencode := (encode_data (t := t)).2 ⟨hlength, rfl⟩
  refine ⟨hlength, ?_, ⟨_, hencode, ofOctets_of_encode hencode ht⟩,
    Relay.Message.ofOctets_of_encode h, r.label_reread, halike.direction, halike.reference,
    halike.isRequest⟩
  rw [carrying, h]
  rfl

/-- The longest way down: data with a submit that is cut, on the highest value of a transaction. -/
theorem carried_overlong :
    (⟨false, 7⟩ : TransactionId).value ≤ 7 ∧ ∃ payload,
      (Relay.Message.data 5 ⟨.unknown, .reserved 0x21, .digits [⟨3, by decide⟩]⟩
        (.submit Transfer.Message.overlong)).encode = .ok payload ∧
      payload.length = 156 ∧ payload.length ≤ maxPayload ∧
      (∃ s, encode (.data ⟨false, 7⟩ payload) = .ok s ∧
        ofOctets s = .ok (.data ⟨false, 7⟩ payload)) ∧
      Relay.Message.ofOctets payload = .ok (.data 5 ⟨.unknown, .isdn, .digits [⟨3, by decide⟩]⟩
        (.submit Transfer.Message.overlong.reread)) := by
  have hencode : (Relay.Message.data 5 ⟨.unknown, .reserved 0x21, .digits [⟨3, by decide⟩]⟩
      (.submit Transfer.Message.overlong)).encode = .ok ([0, 5, 0, 2, 0x81, 0xF3, 149] ++
        Transfer.Message.overlongOctets) := by decide +kernel
  obtain ⟨hlength, -, hs, hread, -⟩ := carried_of_encode (t := ⟨false, 7⟩) (by decide) hencode
  exact ⟨by decide, _, hencode, by decide +kernel, hlength, hs, hread⟩

end Message

end ShortMessage.Control
