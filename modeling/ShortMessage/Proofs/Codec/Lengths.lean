import Mathlib.Data.List.Forall2
import ShortMessage.Proofs.Codec.Control

/-!
# What the length octets say

Every length octet of a message counts something: the octets behind it, the half octets of an
address, or the units of header and text.  `LaidOut` describes the octets of each part field by
field, each length octet together with what it counts, and all that is written is laid out so
(`Transfer.Message.laidOut_of_encode`, `Relay.Message.laidOut_of_encode`,
`Control.Message.laidOut_of_encode`).
-/

namespace ShortMessage

/-- The octets stand behind an octet that says how many they are. -/
def Prefixed (value s : Octets) : Prop :=
  ∃ length : UInt8, length.toNat = value.length ∧ s = length :: value

theorem prefixed_ofNat {value : Octets} (h : value.length < 256) :
    Prefixed value (UInt8.ofNat value.length :: value) :=
  ⟨UInt8.ofNat value.length, Nat.mod_eq_of_lt h, rfl⟩

/-! ## Addresses -/

namespace Address

variable {a : Address} {s : Octets}

/-- The transfer form: the length counts the half octets of the value, a digit taking one, and
fills up the last octet. -/
inductive LaidOut (a : Address) : Octets → Prop
  | digits {ds : Digits} {length : UInt8} (hvalue : a.value = .digits ds)
      (hlength : length.toNat = ds.length) (hoctets : ds.pack.length = (length.toNat + 1) / 2) :
      LaidOut a (length :: a.kindOctet :: ds.pack)
  | text {cs : List Char} {units : List UInt8} {length : UInt8} (hvalue : a.value = .text cs)
      (hunits : Alphabet.unitsOf cs = .ok units)
      (hlength : length.toNat = (7 * units.length + 3) / 4)
      (hoctets : (Alphabet.pack units 0).length = (length.toNat + 1) / 2) :
      LaidOut a (length :: a.kindOctet :: Alphabet.pack units 0)

/-- The relay form: the length counts the octets behind it. -/
def RelayLaidOut (a : Address) (s : Octets) : Prop :=
  ∃ ds, a.value = .digits ds ∧ Prefixed (a.kindOctet :: ds.pack) s

/-- The bound on the octets of an address keeps the number of half octets within its octet. -/
theorem laidOut_of_encode (h : a.encode = .ok s) : a.LaidOut s := by
  obtain ⟨ton, plan, ds | cs⟩ := a
  · obtain ⟨⟨-, hfits⟩, rfl⟩ := encode_digits.1 h
    unfold Digits.packedLength maxOctets at hfits
    have hlength : (UInt8.ofNat ds.length).toNat = ds.length := Nat.mod_eq_of_lt (by omega)
    refine .digits rfl hlength ?_
    rw [hlength, Digits.length_pack]
    rfl
  · obtain ⟨-, units, hunits, hfits, rfl⟩ := encode_text.1 h
    unfold maxOctets at hfits
    have hlength : (UInt8.ofNat ((units.length * 7 + 3) / 4)).toNat = (units.length * 7 + 3) / 4 :=
      Nat.mod_eq_of_lt (by omega)
    refine .text rfl hunits (by rw [hlength, Nat.mul_comm]) ?_
    rw [hlength, Alphabet.length_pack, Alphabet.packedLength, UInt8.toNat_zero]
    omega

theorem relayLaidOut_of_encode (h : a.encodeRelay = .ok s) : a.RelayLaidOut s := by
  obtain ⟨ds, hvalue, hfits, rfl⟩ := encodeRelay_eq_ok.1 h
  unfold maxRelayValue at hfits
  have hlength : (a.kindOctet :: ds.pack).length = 1 + ds.packedLength := by
    rw [List.length_cons, Digits.length_pack, Nat.add_comm]
  rw [← hlength]
  exact ⟨ds, hvalue, prefixed_ofNat (by omega)⟩

end Address

/-! ## User data -/

/-- Key, length and value; the length counts the octets of the value. -/
def Element.LaidOut (e : Element) (s : Octets) : Prop := ∃ t, s = e.key :: t ∧ Prefixed e.value t

theorem Element.laidOut_of_encode {e : Element} {s : Octets} (h : e.encode = .ok s) :
    e.LaidOut s := by
  obtain ⟨hlt, rfl⟩ := encode_eq_ok.1 h
  exact ⟨_, rfl, prefixed_ofNat hlt⟩

namespace Header

variable {es : Header} {s raw : Octets}

/-- The elements behind a length that counts their octets; nothing for a header without elements. -/
def LaidOut (es : Header) (s : Octets) : Prop :=
  if es.isEmpty then s = []
  else ∃ parts : List Octets, List.Forall₂ Element.LaidOut es parts ∧ Prefixed parts.flatten s

/-- The elements of a header stand one behind the other, each with its own length. -/
theorem laidOut_of_encodeElements (h : encodeElements es = .ok raw) :
    ∃ parts : List Octets, List.Forall₂ Element.LaidOut es parts ∧ parts.flatten = raw := by
  induction es generalizing raw with
  | nil =>
    cases h
    exact ⟨[], .nil, rfl⟩
  | cons e es ih =>
    obtain ⟨t, ht, h⟩ := bind_eq_ok.1 h
    obtain ⟨rest, hrest, h⟩ := bind_eq_ok.1 h
    cases h
    obtain ⟨parts, hparts, rfl⟩ := ih hrest
    exact ⟨t :: parts, .cons (Element.laidOut_of_encode ht) hparts, rfl⟩

theorem laidOut_of_encode (h : encode es = .ok s) : es.LaidOut s := by
  unfold LaidOut
  split
  · rename_i hempty
    rw [encode, if_pos hempty] at h
    exact (Except.ok.inj h).symm
  · rename_i hne
    obtain ⟨raw, hraw, hlt, rfl⟩ := encode_eq_ok h (by simpa using hne)
    obtain ⟨parts, hparts, rfl⟩ := laidOut_of_encodeElements hraw
    exact ⟨parts, hparts, prefixed_ofNat hlt⟩

end Header

namespace UserData

variable {u : UserData} {charset : CharacterSet} {limit : Nat} {s : Octets}

/-- The header and a part of the text behind a length that counts the units of both, and stands for
as many octets as follow. -/
inductive LaidOut (u : UserData) (charset : CharacterSet) : Octets → Prop
  | intro {length : UInt8} {header body : Octets} {text : List Char} {size : Nat}
      (hheader : u.header.LaidOut header) (htext : text <+: u.text)
      (hsize : textSize? charset text = some size)
      (hlength : length.toNat = lengthFor charset header.length size)
      (hoctets : octetsOfLength charset length.toNat = header.length + body.length)
      (hbody : readText charset length.toNat header.length body = .ok text) :
      LaidOut u charset (length :: header ++ body)

/-- What is written is the longest part of the text that fits, and the length counts its units. -/
theorem laidOut_of_encode (h : u.encode charset limit = .ok s)
    (ha : u.header.size ≤ limit → Admits charset limit u.header.size) : u.LaidOut charset s := by
  obtain ⟨header, length, body, hheader, hle, hbody, rfl⟩ := encode_eq_ok.1 h
  rw [← Header.length_encode hheader] at ha
  -- What is written is the longest part of the text that fits.
  obtain ⟨size, hsize, hroom⟩ :=
    fits_iff.1 (fits_cut charset (roomFor charset limit header.length) u.text)
  obtain ⟨body', hwritten, hstands⟩ := encodeText_of_fits hsize hroom (ha hle)
  cases (encodeText_cut hbody).symm.trans hwritten
  have hlength : (UInt8.ofNat (lengthFor charset header.length size)).toNat =
      lengthFor charset header.length size := Nat.mod_eq_of_lt hstands.length_lt
  refine .intro (Header.laidOut_of_encode hheader) (cut_isPrefix _ _ _) hsize hlength ?_ ?_
  · rw [hlength, hstands.octets]
  · rw [hlength, hstands.read]

end UserData

/-! ## Messages of the transfer layer -/

namespace Transfer

/-- The fields that an indicator announces. -/
inductive Parameters.LaidOut (p : Parameters) : Octets → Prop
  | absent (h : p.userData = none) :
      LaidOut p (p.protocol.toList ++ (p.coding.map DataCoding.octet).toList)
  | present {u : UserData} {userData : Octets} (h : p.userData = some u)
      (huserData : u.LaidOut (charsetOf p.coding) userData) :
      LaidOut p (p.protocol.toList ++ (p.coding.map DataCoding.octet).toList ++ userData)

theorem Parameters.laidOut_of_encodeFields {p : Parameters} {s : Octets}
    (h : p.encodeFields = .ok s) : p.LaidOut s := by
  obtain ⟨data, hdata, rfl⟩ := encodeFields_eq_ok.1 h
  unfold encodeUserData at hdata
  cases hu : p.userData with
  | none =>
    rw [hu] at hdata
    cases hdata
    rw [List.append_nil]
    exact .absent hu
  | some u =>
    rw [hu] at hdata
    exact .present hu (UserData.laidOut_of_encode hdata (UserData.admits_message _))

namespace Message

/-- The address and the user data of a message among its other fields. -/
inductive LaidOut : Message → Octets → Prop
  | submit {m : Submit} {destination validity userData : Octets}
      (hdestination : m.destination.LaidOut destination)
      (hvalidity : m.validity.encode = .ok validity)
      (huserData : m.userData.LaidOut m.coding.charset userData) :
      LaidOut (.submit m) ([m.firstOctet, m.reference] ++ destination ++
        [m.protocol, m.coding.octet] ++ validity ++ userData)
  | deliver {m : Deliver} {originator timestamp userData : Octets}
      (horiginator : m.originator.LaidOut originator)
      (htimestamp : m.timestamp.encode = .ok timestamp)
      (huserData : m.userData.LaidOut m.coding.charset userData) :
      LaidOut (.deliver m) ([m.firstOctet] ++ originator ++ [m.protocol, m.coding.octet] ++
        timestamp ++ userData)
  | command {m : Command} {destination commandData : Octets}
      (hdestination : m.destination.LaidOut destination)
      (hcommandData : m.commandData.LaidOut .eightBit commandData) :
      LaidOut (.command m) ([m.firstOctet, m.reference, m.protocol, m.commandType,
        m.messageNumber] ++ destination ++ commandData)
  | statusReport {m : StatusReport} {recipient timestamp dischargeTime : Octets}
      (hrecipient : m.recipient.LaidOut recipient)
      (htimestamp : m.timestamp.encode = .ok timestamp)
      (hdischargeTime : m.dischargeTime.encode = .ok dischargeTime)
      (hempty : m.parameters.isEmpty = true) :
      LaidOut (.statusReport m) ([m.firstOctet, m.reference] ++ recipient ++ timestamp ++
        dischargeTime ++ [m.status])
  | statusReportFields {m : StatusReport} {recipient timestamp dischargeTime fields : Octets}
      (hrecipient : m.recipient.LaidOut recipient)
      (htimestamp : m.timestamp.encode = .ok timestamp)
      (hdischargeTime : m.dischargeTime.encode = .ok dischargeTime)
      (hempty : m.parameters.isEmpty = false) (hfields : m.parameters.LaidOut fields) :
      LaidOut (.statusReport m) ([m.firstOctet, m.reference] ++ recipient ++ timestamp ++
        dischargeTime ++ [m.status] ++ m.parameters.indicator :: fields)
  | submitReport {m : SubmitReport} {timestamp fields : Octets}
      (htimestamp : m.timestamp.encode = .ok timestamp)
      (hfields : m.parameters.LaidOut fields) :
      LaidOut (.submitReport m) ([reportOctet .submitReport m.parameters] ++
        m.failureCause.toList ++ [m.parameters.indicator] ++ timestamp ++ fields)
  | deliverReport {m : DeliverReport} {fields : Octets} (hfields : m.parameters.LaidOut fields) :
      LaidOut (.deliverReport m) ([reportOctet .deliverReport m.parameters] ++
        m.failureCause.toList ++ m.parameters.indicator :: fields)

/-- Every message of the transfer layer that can be written is laid out with exact lengths. -/
theorem laidOut_of_encode {m : Message} {s : Octets} (h : m.encode = .ok s) : m.LaidOut s := by
  cases m with
  | submit m =>
    obtain ⟨destination, hd, validity, hv, userData, hu, rfl⟩ := Submit.encode_eq_ok.1 h
    exact .submit (Address.laidOut_of_encode hd) hv
      (UserData.laidOut_of_encode hu (UserData.admits_message _))
  | deliver m =>
    obtain ⟨originator, ho, timestamp, ht, userData, hu, rfl⟩ := Deliver.encode_eq_ok.1 h
    exact .deliver (Address.laidOut_of_encode ho) ht
      (UserData.laidOut_of_encode hu (UserData.admits_message _))
  | command m =>
    obtain ⟨destination, hd, commandData, hc, rfl⟩ := Command.encode_eq_ok.1 h
    exact .command (Address.laidOut_of_encode hd)
      (UserData.laidOut_of_encode hc UserData.admits_command)
  | statusReport m =>
    obtain ⟨recipient, hr, timestamp, ht, dischargeTime, hd, parameters, hp, rfl⟩ :=
      StatusReport.encode_eq_ok.1 h
    have hrecipient := Address.laidOut_of_encode hr
    unfold StatusReport.encodeParameters at hp
    cases hempty : m.parameters.isEmpty with
    | true =>
      rw [if_pos hempty] at hp
      cases hp
      rw [List.append_nil]
      exact .statusReport hrecipient ht hd hempty
    | false =>
      rw [if_neg (by simp [hempty])] at hp
      obtain ⟨fields, hfields, rfl⟩ := Parameters.encode_eq_ok.1 hp
      exact .statusReportFields hrecipient ht hd hempty (Parameters.laidOut_of_encodeFields hfields)
  | submitReport m =>
    obtain ⟨failure, hf, timestamp, ht, fields, hp, rfl⟩ := SubmitReport.encode_eq_ok.1 h
    obtain ⟨-, rfl⟩ := encodeFailure_eq_ok.1 hf
    exact .submitReport ht (Parameters.laidOut_of_encodeFields hp)
  | deliverReport m =>
    obtain ⟨failure, hf, parameters, hp, rfl⟩ := DeliverReport.encode_eq_ok.1 h
    obtain ⟨-, rfl⟩ := encodeFailure_eq_ok.1 hf
    obtain ⟨fields, hfields, rfl⟩ := Parameters.encode_eq_ok.1 hp
    exact .deliverReport (Parameters.laidOut_of_encodeFields hfields)

end Message

end Transfer

/-! ## Messages of the relay and control layers -/

namespace Relay.Message

/-- The service centre's address, the cause and the message that is carried, each behind its
length. -/
inductive LaidOut : Message → Octets → Prop
  | data {reference : UInt8} {centre : Address} {message : Transfer.Message}
      {address octets carried : Octets} (haddress : centre.RelayLaidOut address)
      (hmessage : message.LaidOut octets) (hcarried : Prefixed octets carried) :
      LaidOut (.data reference centre message) ([typeFor dataType message.direction, reference] ++
        addresses message.direction address ++ carried)
  | ack {direction : Direction} {reference : UInt8} :
      LaidOut (.ack direction reference none) [typeFor ackType direction, reference]
  | ackReport {direction : Direction} {reference : UInt8} {report : Transfer.Message}
      {octets carried : Octets} (hreport : report.LaidOut octets)
      (hcarried : Prefixed octets carried) :
      LaidOut (.ack direction reference (some report))
        ([typeFor ackType direction, reference, reportElement] ++ carried)
  | error {direction : Direction} {reference : UInt8} {cause : Cause} {diagnostic : Option UInt8}
      {causeOctets : Octets} (hcause : Prefixed (cause.code :: diagnostic.toList) causeOctets) :
      LaidOut (.error direction reference cause diagnostic none)
        ([typeFor errorType direction, reference] ++ causeOctets)
  | errorReport {direction : Direction} {reference : UInt8} {cause : Cause}
      {diagnostic : Option UInt8} {report : Transfer.Message} {causeOctets octets carried : Octets}
      (hcause : Prefixed (cause.code :: diagnostic.toList) causeOctets)
      (hreport : report.LaidOut octets) (hcarried : Prefixed octets carried) :
      LaidOut (.error direction reference cause diagnostic (some report))
        ([typeFor errorType direction, reference] ++ causeOctets ++ reportElement :: carried)
  | memoryAvailable {reference : UInt8} :
      LaidOut (.memoryAvailable reference) [memoryAvailableType, reference]

/-- A message that is carried stands behind the number of its octets, up to 255. -/
theorem prefixed_of_encodeCarried {m : Transfer.Message} {s : Octets}
    (h : encodeCarried m = .ok s) : ∃ octets, m.LaidOut octets ∧ Prefixed octets s := by
  obtain ⟨octets, hm, hlt, rfl⟩ := encodeCarried_eq_ok.1 h
  exact ⟨octets, Transfer.Message.laidOut_of_encode hm, prefixed_ofNat hlt⟩

/-- The length of a cause also counts the diagnostic, if there is one. -/
theorem prefixed_of_encodeCause {cause : Cause} {diagnostic : Option UInt8} {s : Octets}
    (h : encodeCause cause diagnostic = .ok s) : Prefixed (cause.code :: diagnostic.toList) s := by
  obtain ⟨-, rfl⟩ := encodeCause_eq_ok.1 h
  exact prefixed_ofNat (by cases diagnostic <;> simp)

/-- Every message of the relay layer that can be written is laid out with exact lengths. -/
theorem laidOut_of_encode {m : Message} {s : Octets} (h : m.encode = .ok s) : m.LaidOut s := by
  cases m with
  | data reference centre message =>
    obtain ⟨-, address, ha, carried, hc, rfl⟩ := encode_data.1 h
    obtain ⟨octets, hmessage, hcarried⟩ := prefixed_of_encodeCarried hc
    exact .data (Address.relayLaidOut_of_encode ha) hmessage hcarried
  | ack direction reference report =>
    obtain ⟨octets, hr, rfl⟩ := encode_ack.1 h
    cases report with
    | none =>
      cases hr
      exact .ack
    | some m =>
      obtain ⟨-, carried, hc, rfl⟩ := encodeReport_some.1 hr
      obtain ⟨octets, hreport, hcarried⟩ := prefixed_of_encodeCarried hc
      exact .ackReport hreport hcarried
  | error direction reference cause diagnostic report =>
    obtain ⟨causeOctets, hcause, octets, hr, rfl⟩ := encode_error.1 h
    have hprefixed := prefixed_of_encodeCause hcause
    cases report with
    | none =>
      cases hr
      rw [List.append_nil]
      exact .error hprefixed
    | some m =>
      obtain ⟨-, carried, hc, rfl⟩ := encodeReport_some.1 hr
      obtain ⟨octets, hreport, hcarried⟩ := prefixed_of_encodeCarried hc
      exact .errorReport hprefixed hreport hcarried
  | memoryAvailable reference =>
    cases h
    exact .memoryAvailable

end Relay.Message

namespace Control.Message

/-- The payload behind its length. -/
inductive LaidOut : Message → Octets → Prop
  | data {t : TransactionId} {payload s : Octets} (hpayload : Prefixed payload s) :
      LaidOut (.data t payload) ([t.octet, dataType] ++ s)
  | ack {t : TransactionId} : LaidOut (.ack t) [t.octet, ackType]
  | error {t : TransactionId} {cause : Cause} :
      LaidOut (.error t cause) [t.octet, errorType, cause.code]

/-- Every message of the control layer that can be written is laid out with exact lengths. -/
theorem laidOut_of_encode {m : Message} {s : Octets} (h : m.encode = .ok s) : m.LaidOut s := by
  cases m with
  | data t payload =>
    obtain ⟨hle, rfl⟩ := encode_data.1 h
    exact .data (prefixed_ofNat (hle.trans_lt (by decide)))
  | ack t =>
    cases h
    exact .ack
  | error t cause =>
    cases h
    exact .error

end Control.Message

end ShortMessage
