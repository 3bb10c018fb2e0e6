import ShortMessage.Proofs.Codec.Lengths
import ShortMessage.Proofs.Machine.Transfer

/-!
# Messages of the relay and control layers on a machine

A transfer message is written to a buffer of its own before its length is known.  The octets that a
length names are taken off as a slice and read as a whole message.
-/

namespace ShortMessage

/-! ## The relay layer -/

section Relay

open Relay Relay.Message

variable [Word]

namespace Scanner

/-- Reads a transfer message behind its length. -/
def carried (direction : Direction) : Scanner Transfer.Message := do
  let s ← block
  complete (transfer direction) s

/-- Reads the element of a report, which is there if any octets are left. -/
def report (direction : Direction) : Scanner (Option Transfer.Message) := do
  let left ← remaining
  if left = 0 then return none
  let element ← octet
  if element ≠ reportElement then throw (.field (.relayElement element))
  let m ← carried direction
  Checked.ofExcept (checkReport direction m)
  return some m

/-- Reads a cause, of which seven bits count, and the diagnostic if there is one. -/
def cause : Scanner (Cause × Option UInt8) := do
  match ← block with
  | [cause] => return (Cause.ofCode (cause &&& 0x7F), none)
  | [cause, diagnostic] => return (Cause.ofCode (cause &&& 0x7F), some diagnostic)
  | s => throw (.field (.relayCauseLength s.length))

/-- Reads the rest of data that travels this way. -/
def data (direction : Direction) : Scanner Message := do
  let reference ← octet
  let originator ← relayAddress
  let destination ← relayAddress
  let (centre, mobile) := match direction with
    | .toCentre => (destination, originator)
    | .toMobile => (originator, destination)
  if mobile.isSome then throw (.field .mobileAddressPresent)
  match centre with
  | none => throw (.field .centreAddressMissing)
  | some centre =>
    let message ← carried direction
    Checked.ofExcept (checkData message)
    return .data reference centre message

/-- Reads the rest of an acknowledgement that travels this way. -/
def ack (direction : Direction) : Scanner Message := do
  let reference ← octet
  let report ← report direction
  return .ack direction reference report

/-- Reads the rest of an error that travels this way. -/
def error (direction : Direction) : Scanner Message := do
  let reference ← octet
  let (cause, diagnostic) ← cause
  let report ← report direction
  return .error direction reference cause diagnostic report

/-- Reads a message.  Without its low bit the type says what it is. -/
def relay : Scanner Message := do
  let type := (← octet) &&& 0x07
  let direction := directionOf type
  match (type &&& 0xFE).toNat with
  | 0 => data direction
  | 2 => ack direction
  | 4 => error direction
  | 6 =>
    if direction = .toCentre then .memoryAvailable <$> octet
    else throw (.unknownType .relay type)
  | _ => throw (.unknownType .relay type)

/-- What is carried is read from its own octets, none of which may be left over. -/
theorem follows_carried (direction : Direction) :
    Follows (carried direction) (carriedDecoder direction) :=
  follows_block.bind fun s => follows_lift ((follows_transfer direction).complete s)

theorem follows_report (direction : Direction) :
    Follows (report direction) (reportDecoder direction) := by
  refine follows_remaining.bind fun left => follows_ite (fun _ => follows_pure none) fun _ => ?_
  refine follows_octet.bind fun element => follows_ite (fun _ => follows_throw_bind _) fun _ => ?_
  refine (follows_carried direction).bind fun m => ?_
  exact Follows.check (Checked.gives_ofExcept _) fun _ _ => follows_pure _

omit [Word] in
theorem follows_cause : Follows cause causeDecoder := by
  refine follows_block.bind fun s => ?_
  match s with
  | [] => exact follows_throw _
  | [_] => exact follows_pure _
  | [_, _] => exact follows_pure _
  | _ :: _ :: _ :: _ => exact follows_throw _

/-- Which of the two addresses has to be there depends on the direction; both are read first. -/
theorem follows_data (direction : Direction) : Follows (data direction) (dataDecoder direction) := by
  have hrest : ∀ reference centre, Follows
      (do
        let message ← carried direction
        Checked.ofExcept (checkData message)
        return Message.data reference centre message)
      (do
        let message ← carriedDecoder direction
        Decoder.ofExcept (checkData message)
        return Message.data reference centre message) := fun reference centre =>
    (follows_carried direction).bind fun m =>
      Follows.check (Checked.gives_ofExcept _) fun _ _ => follows_pure _
  refine follows_octet.bind fun reference => follows_relayAddress.bind fun originator =>
    follows_relayAddress.bind fun destination => ?_
  cases direction with
  | toCentre =>
    refine follows_ite (fun _ => follows_throw_bind _) fun _ => ?_
    cases destination with
    | none => exact follows_throw _
    | some centre => exact hrest reference centre
  | toMobile =>
    refine follows_ite (fun _ => follows_throw_bind _) fun _ => ?_
    cases originator with
    | none => exact follows_throw _
    | some centre => exact hrest reference centre

theorem follows_ack (direction : Direction) : Follows (ack direction) (ackDecoder direction) :=
  follows_octet.bind fun _ => (follows_report direction).bind fun _ => follows_pure _

theorem follows_error (direction : Direction) : Follows (error direction) (errorDecoder direction) :=
  follows_octet.bind fun _ => follows_cause.bind fun _ => (follows_report direction).bind fun _ =>
    follows_pure _

/-- Whatever octets arrive, a message of the relay layer is read from them without a trap. -/
theorem follows_relay : Follows relay Message.decoder := by
  refine follows_octet.bind fun first => ?_
  dsimp only
  have htypes : ∀ b : UInt8, b &&& 0x07 ∈ [0, 1, 2, 3, 4, 5, 6, (7 : UInt8)] := by
    decide +kernel
  have htype := htypes first
  generalize first &&& 0x07 = type at htype ⊢
  simp only [List.mem_cons, List.not_mem_nil, or_false] at htype
  rcases htype with rfl | rfl | rfl | rfl | rfl | rfl | rfl | rfl
  · exact follows_data .toCentre
  · exact follows_data .toMobile
  · exact follows_ack .toCentre
  · exact follows_ack .toMobile
  · exact follows_error .toCentre
  · exact follows_error .toMobile
  · exact follows_octet.map Message.memoryAvailable
  · exact follows_throw _

end Scanner

namespace Printer

open Machine

/-- Writes octets behind their length; `field` is the one to blame for too many. -/
def lengthPrefixed (field : String) (s : Octets) : Printer Unit := do
  put [← check (octetOr (.field (.lengthOctet field s.length)) s.length)]
  put s

/-- Writes a transfer message behind its length. -/
def carried (m : Transfer.Message) : Printer Unit := do
  let s ← check (toOctets (transfer m))
  lengthPrefixed "rp_user_data" s

/-- Writes the element of a report, if there is one. -/
def report (direction : Direction) : Option Transfer.Message → Printer Unit
  | none => pure ()
  | some m => do
    check (Checked.ofExcept (checkReport direction m))
    put [reportElement]
    carried m

/-- Writes the cause and the diagnostic, behind their length. -/
def cause (cause : Cause) (diagnostic : Option UInt8) : Printer Unit :=
  if Bits.has cause.code 0x80 then throw (.field (.relayCauseRange cause.code))
  else
    match diagnostic with
    | some d => put [2, cause.code, d]
    | none => put [1, cause.code]

/-- Writes a message. -/
def relay : Message → Printer Unit
  | .data reference centre message => do
    check (Checked.ofExcept (checkData message))
    put [typeFor dataType message.direction]
    put [reference]
    match message.direction with
    | .toCentre => relayAddress none; relayAddress (some centre)
    | .toMobile => relayAddress (some centre); relayAddress none
    carried message
  | .ack direction reference report? => do
    put [typeFor ackType direction]
    put [reference]
    report direction report?
  | .error direction reference cause? diagnostic report? => do
    put [typeFor errorType direction]
    put [reference]
    cause cause? diagnostic
    report direction report?
  | .memoryAvailable reference => do
    put [memoryAvailableType]
    put [reference]

omit [Word] in
/-- The length is stored in its octet only after it was seen to fit. -/
theorem writes_lengthPrefixed (field : String) (s : Octets) :
    Writes [] (lengthPrefixed field s) (ShortMessage.lengthPrefixed field s) := by
  have hsame : ShortMessage.lengthPrefixed field s =
      ((if s.length < 256 then .ok (UInt8.ofNat s.length)
        else .error (.field (.lengthOctet field s.length))) >>= fun length => .ok ([length] ++ s)) := by
    unfold ShortMessage.lengthPrefixed
    split <;> rfl
  rw [hsame]
  exact Writes.check (gives_octetOr _ _) fun length _ => Writes.put (writes_put s)

theorem writes_carried {m : Transfer.Message} (h : Holds m) :
    Writes [] (carried m) (encodeCarried m) :=
  Writes.check (writes_transfer h).toOctets fun s _ => writes_lengthPrefixed _ s

theorem writes_report (direction : Direction) {m? : Option Transfer.Message}
    (h : ∀ m ∈ m?, Holds m) : Writes [] (report direction m?) (encodeReport direction m?) := by
  cases m? with
  | none => exact writes_pure
  | some m =>
    refine Writes.check (Checked.gives_ofExcept _) fun _ _ => Writes.put ?_
    exact Writes.last (writes_carried (h m rfl)) fun _ _ => rfl

omit [Word] in
theorem writes_cause (c : Cause) (diagnostic : Option UInt8) :
    Writes [] (cause c diagnostic) (encodeCause c diagnostic) := by
  have hbit : ∀ b : UInt8, Bits.has b 0x80 = true ↔ ¬b ≤ 127 := by
    decide +kernel
  unfold cause encodeCause
  by_cases hle : c.code ≤ 127
  · rw [if_neg (by simp [hbit, hle]), if_pos hle]
    cases diagnostic with
    | none => exact writes_put _
    | some d => exact writes_put _
  · rw [if_pos ((hbit _).2 hle), if_neg hle]
    exact writes_throw _

end Printer

namespace Machine

/-- Memory holds the message that is carried. -/
def HoldsRelay : Message → Prop
  | .data _ _ message => Holds message
  | .ack _ _ report | .error _ _ _ _ report => ∀ m ∈ report, Holds m
  | .memoryAvailable _ => True

end Machine

namespace Printer

open Machine

/-- A message that memory holds is written as its encoder writes it, or refused with its error. -/
theorem writes_relay {m : Message} (h : HoldsRelay m) : Writes [] (relay m) m.encode := by
  cases m with
  | data reference centre message =>
    refine Writes.check (Checked.gives_ofExcept _) fun _ _ => Writes.put (Writes.put ?_)
    have hcarried := writes_carried h
    generalize message.direction = direction
    cases direction with
    | toCentre =>
      refine Writes.write writes_absentRelay ?_
      refine Writes.part (writes_relayAddress centre) fun address _ => ?_
      exact Writes.last hcarried fun carried _ => by simp
    | toMobile =>
      refine Writes.part (writes_relayAddress centre) fun address _ => ?_
      refine Writes.write writes_absentRelay ?_
      exact Writes.last hcarried fun carried _ => by simp
  | ack direction reference report =>
    exact Writes.put (Writes.put (Writes.last (writes_report direction h) fun _ _ => rfl))
  | error direction reference cause diagnostic report =>
    refine Writes.put (Writes.put (Writes.part (writes_cause cause diagnostic) fun causeOctets _ => ?_))
    exact Writes.last (writes_report direction h) fun _ _ => by simp
  | memoryAvailable reference => exact Writes.put (writes_put _)

end Printer

end Relay

/-! ## The control layer -/

section Control

open Control Control.Message

namespace Scanner

/-- Reads a message. -/
def control : Scanner Message := do
  let t ← Checked.ofExcept (TransactionId.ofOctet (← octet))
  let type ← octet
  match type.toNat with
  | 0x01 => do
    let payload ← block
    Checked.ofExcept (checkPayload payload)
    return .data t payload
  | 0x04 => return .ack t
  | 0x10 => return .error t (Cause.ofCode (← octet))
  | _ => throw (.unknownType .control type)

/-- Whatever octets arrive, a message of the control layer is read from them without a trap. -/
theorem follows_control : Follows control Message.decoder := by
  refine follows_octet.bind fun first => ?_
  refine Follows.check (Checked.gives_ofExcept _) fun t _ => follows_octet.bind fun type => ?_
  generalize type.toNat = n
  match n with
  | 0x01 =>
    refine follows_block.bind fun payload => ?_
    exact Follows.check (Checked.gives_ofExcept _) fun _ _ => follows_pure _
  | 0x04 => exact follows_pure _
  | 0x10 => exact follows_octet.bind fun _ => follows_pure _
  | 0 | 2 | 3 | 5 | 6 | 7 | 8 | 9 | 10 | 11 | 12 | 13 | 14 | 15 | n + 17 => exact follows_throw _

end Scanner

namespace Printer

open Machine

/-- Writes a message. -/
def control : Message → Printer Unit
  | .data t payload => do
    put [t.octet]
    check (Checked.ofExcept (checkPayload payload))
    put [dataType]
    lengthPrefixed "cp_user_data" payload
  | .ack t => do
    put [t.octet]
    put [ackType]
  | .error t cause => do
    put [t.octet]
    put [errorType]
    put [cause.code]

theorem writes_control (m : Message) : Writes [] (control m) m.encode := by
  cases m with
  | data t payload =>
    refine Writes.put (Writes.check (Checked.gives_ofExcept _) fun _ hpayload => Writes.put ?_)
    have hle : payload.length ≤ maxPayload := by
      by_contra hgt
      rw [checkPayload, if_neg hgt] at hpayload
      cases hpayload
    have hprefixed := writes_lengthPrefixed "cp_user_data" payload
    rw [ShortMessage.lengthPrefixed, if_pos (hle.trans_lt (by decide))] at hprefixed
    exact hprefixed.last (g := fun s => pure ([t.octet, dataType] ++ s)) fun _ _ => rfl
  | ack t => exact Writes.put (writes_put _)
  | error t cause => exact Writes.put (Writes.put (writes_put _))

end Printer

end Control

/-! ## No trap -/

/-- A codec that a machine runs without a trap: it finds in all octets what `read` does and makes of
all messages that memory holds what `write` does, and the octets that are written are laid out so. -/
structure RunsThrough {α : Type} (scanner : Scanner α) (read : Octets → Except Fault α)
    (printer : α → Printer Unit) (holds : α → Prop) (write : α → Except Fault Octets)
    (laidOut : α → Octets → Prop) : Prop where
  reads : ∀ s, Checked.Gives (Scanner.complete scanner s) (read s)
  writes : ∀ m, holds m → Checked.Gives (Printer.toOctets (printer m)) (write m)
  counts : ∀ m s, write m = .ok s → laidOut m s

/-- No codec runs into a trap, and every length octet that is written says what it stands for. -/
theorem codecs_runThrough [Word] :
    (∀ direction, RunsThrough (Scanner.transfer direction) (Transfer.Message.ofOctets direction)
      Printer.transfer Machine.Holds Transfer.Message.encode Transfer.Message.LaidOut) ∧
    RunsThrough Scanner.relay Relay.Message.ofOctets
      Printer.relay Machine.HoldsRelay Relay.Message.encode Relay.Message.LaidOut ∧
    RunsThrough Scanner.control Control.Message.ofOctets
      Printer.control (fun _ => True) Control.Message.encode Control.Message.LaidOut := by
  refine ⟨fun direction => ?_, ?_, ?_⟩
  · exact {
      reads := (Scanner.follows_transfer direction).complete
      writes := fun m h => (Printer.writes_transfer h).toOctets
      counts := fun m s h => Transfer.Message.laidOut_of_encode h }
  · exact {
      reads := Scanner.follows_relay.complete
      writes := fun m h => (Printer.writes_relay h).toOctets
      counts := fun m s h => Relay.Message.laidOut_of_encode h }
  · exact {
      reads := Scanner.follows_control.complete
      writes := fun m _ => (Printer.writes_control m).toOctets
      counts := fun m s h => Control.Message.laidOut_of_encode h }

/-- A delivery from a sender with a name, on its way to the mobile station. -/
def named : Relay.Message :=
  .data 7 ⟨.international, .isdn, .digits []⟩ (.deliver {
    originator := ⟨.alphanumeric, .unknown, .text ['B', 'a', 'n', 'k']⟩
    timestamp := ⟨2011, 3, 22, 14, 25, 40, 36⟩
    userData := ⟨[.concatenated 1 2 1], ['H', 'i']⟩ })

/-- The delivery as it travels. -/
def namedOctets : Octets :=
  [1, 7, 1, 145, 0, 25, 68, 7, 208, 194, 176, 123, 13, 0, 0, 17, 48, 34, 65, 82, 4, 99, 9, 5, 0, 3, 1,
    2, 1, 144, 105]

theorem codecs_runThrough_named : @Machine.HoldsRelay wide named ∧
    named.encode = .ok namedOctets ∧
    Checked.Gives (Printer.toOctets (@Printer.relay wide named)) (.ok namedOctets) ∧
    named.LaidOut namedOctets := by
  have hencode : named.encode = .ok namedOctets := by decide +kernel
  have hcodec := (@codecs_runThrough wide).2.1
  have hholds : @Machine.HoldsRelay wide named := by
    show 14 * 4 < 2 ^ 64
    decide
  exact ⟨hholds, hencode, hencode ▸ hcodec.writes named hholds, hcodec.counts _ _ hencode⟩

end ShortMessage
