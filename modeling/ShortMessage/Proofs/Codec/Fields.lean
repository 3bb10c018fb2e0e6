import ShortMessage.Coding
import ShortMessage.Proofs.Codec.Reads
import ShortMessage.Validity

/-!
# Coding schemes, timestamps and validity periods

Each of these fields is read back as it was written (`reads_dataCoding`, `reads_timestamp`,
`reads_validity`), and takes at most seven octets.  Of an octet with two digits only the numbers
below 100 have to be looked at, so each part of a timestamp is decided on its own.
-/

namespace ShortMessage

open Decoder

/-! ## Coding schemes -/

theorem DataCoding.ofOctet?_octet (c : DataCoding) : ofOctet? c.octet = some c := by
  cases c with
  | general autoDelete compressed messageClass charset =>
    cases messageClass with
    | none => cases autoDelete <;> cases compressed <;> cases charset <;> rfl
    | some c => cases autoDelete <;> cases compressed <;> cases charset <;> decide +revert
  | waiting behavior active kind => cases behavior <;> cases active <;> cases kind <;> rfl
  | classified data c => cases data <;> decide +revert

theorem reads_dataCoding (c : DataCoding) : Reads DataCoding.decoder [c.octet] c := by
  refine (reads_octet _).last ?_
  rw [DataCoding.ofOctet?_octet]
  exact reads_pure c

/-! ## Two decimal digits -/

theorem SemiOctets.read_write (part : ClockPart) {n : Nat} (h : n < 100) :
    read part (write n) = .ok n := by
  have hall : ∀ n < 100, read? (write n) = some n := by decide
  rw [read, hall n h]

/-! ## Timestamps -/

theorem Timestamp.checkPart_eq_ok {part : ClockPart} {low high value : Int} {u : Unit} :
    checkPart part low high value = .ok u ↔ low ≤ value ∧ value ≤ high := by
  unfold checkPart
  split <;> simp_all

/-- The parts of a timestamp that can be written. -/
theorem Timestamp.validate_eq_ok {t : Timestamp} : t.validate = .ok () ↔
    (2000 ≤ t.year.toNat ∧ t.year.toNat ≤ 2099) ∧ (1 ≤ t.month.toNat ∧ t.month.toNat ≤ 12) ∧
      (1 ≤ t.day.toNat ∧ t.day.toNat ≤ 31) ∧ t.hour.toNat ≤ 23 ∧ t.minute.toNat ≤ 59 ∧
      t.second.toNat ≤ 59 ∧ -79 ≤ t.zone.toInt ∧ t.zone.toInt ≤ 79 := by
  simp only [validate, bind_eq_ok, checkPart_eq_ok, exists_const]
  omega

/-- The zone and its sign share an octet. -/
theorem Timestamp.read_zone (z : Int8) (hlow : -79 ≤ z.toInt) (hhigh : z.toInt ≤ 79) :
    SemiOctets.read .zone
        ((SemiOctets.write z.toInt.natAbs ||| Bits.flag (z < 0) westBit) &&& 0xF7) =
      .ok z.toInt.natAbs ∧
    (if Bits.has (SemiOctets.write z.toInt.natAbs ||| Bits.flag (z < 0) westBit) westBit
      then Int8.ofInt (-z.toInt.natAbs) else Int8.ofNat z.toInt.natAbs) = z := by
  have hall : ∀ z : Int8, -79 ≤ z.toInt → z.toInt ≤ 79 → SemiOctets.read? 
        ((SemiOctets.write z.toInt.natAbs ||| Bits.flag (z < 0) westBit) &&& 0xF7) =
      some z.toInt.natAbs ∧
    (if Bits.has (SemiOctets.write z.toInt.natAbs ||| Bits.flag (z < 0) westBit) westBit
      then Int8.ofInt (-z.toInt.natAbs) else Int8.ofNat z.toInt.natAbs) = z := by
    decide +kernel
  obtain ⟨hread, hsign⟩ := hall z hlow hhigh
  refine ⟨?_, hsign⟩
  rw [SemiOctets.read, hread]

theorem Timestamp.ofOctets_encode {t : Timestamp} (h : t.validate = .ok ()) :
    ofOctets (SemiOctets.write (t.year.toNat % 100)) (SemiOctets.write t.month.toNat)
      (SemiOctets.write t.day.toNat) (SemiOctets.write t.hour.toNat)
      (SemiOctets.write t.minute.toNat) (SemiOctets.write t.second.toNat)
      (SemiOctets.write t.zone.toInt.natAbs ||| Bits.flag (t.zone < 0) westBit) = .ok t := by
  obtain ⟨hyear, hmonth, hday, hhour, hminute, hsecond, hlow, hhigh⟩ := validate_eq_ok.1 h
  obtain ⟨hzone, hsign⟩ := read_zone t.zone hlow hhigh
  have heq : UInt16.ofNat (2000 + t.year.toNat % 100) = t.year := by
    rw [show 2000 + t.year.toNat % 100 = t.year.toNat by omega, UInt16.ofNat_toNat]
  unfold ofOctets
  rw [hzone, SemiOctets.read_write .year (Nat.mod_lt _ (by decide)),
    SemiOctets.read_write .month (by omega), SemiOctets.read_write .day (by omega),
    SemiOctets.read_write .hour (by omega), SemiOctets.read_write .minute (by omega),
    SemiOctets.read_write .second (by omega)]
  simp only [bind, Except.bind, heq, hsign, UInt8.ofNat_toNat, h]
  rfl

theorem Timestamp.encode_eq_ok {t : Timestamp} {s : Octets} : t.encode = .ok s ↔
    t.validate = .ok () ∧ s = [SemiOctets.write (t.year.toNat % 100),
      SemiOctets.write t.month.toNat, SemiOctets.write t.day.toNat,
      SemiOctets.write t.hour.toNat, SemiOctets.write t.minute.toNat,
      SemiOctets.write t.second.toNat,
      SemiOctets.write t.zone.toInt.natAbs ||| Bits.flag (t.zone < 0) westBit] := by
  simp only [encode, bind_eq_ok, pure_eq_ok]
  exact ⟨fun ⟨_, h⟩ => h, fun h => ⟨(), h⟩⟩

theorem Timestamp.length_encode {t : Timestamp} {s : Octets} (h : t.encode = .ok s) :
    s.length = octetCount := by
  obtain ⟨-, rfl⟩ := encode_eq_ok.1 h
  rfl

theorem reads_timestamp {t : Timestamp} {s : Octets} (h : t.encode = .ok s) :
    Reads Timestamp.decoder s t := by
  obtain ⟨hvalid, rfl⟩ := Timestamp.encode_eq_ok.1 h
  refine Reads.last (d := Decoder.octets Timestamp.octetCount) (reads_octets rfl) ?_
  exact reads_ofExcept (Timestamp.ofOctets_encode hvalid)

/-! ## Validity periods -/

theorem EnhancedPeriod.ofOctets_octets {p : EnhancedPeriod} {format first second third : UInt8}
    (h : p.octets = .ok (format, first, second, third)) :
    format ≤ 3 ∧ ofOctets format first second third = .ok p := by
  cases p with
  | unspecified | relative octet | seconds count =>
    cases h
    exact ⟨by decide, rfl⟩
  | clock hours minutes seconds =>
    simp only [octets] at h
    split at h
    · rename_i hrange
      cases h
      obtain ⟨hh, hm, hs⟩ := hrange
      refine ⟨by decide, ?_⟩
      rw [UInt8.le_iff_toNat_le] at hh hm hs
      show (do
        let h' := UInt8.ofNat (← SemiOctets.read .hours (SemiOctets.write hours.toNat))
        let m := UInt8.ofNat (← SemiOctets.read .minutes (SemiOctets.write minutes.toNat))
        let s := UInt8.ofNat (← SemiOctets.read .seconds (SemiOctets.write seconds.toNat))
        if m ≤ 59 ∧ s ≤ 59 then return EnhancedPeriod.clock h' m s
          else throw (Fault.field (.period h' m s))) = _
      rw [SemiOctets.read_write .hours (Nat.lt_succ_of_le hh),
        SemiOctets.read_write .minutes (Nat.lt_of_le_of_lt hm (by decide)),
        SemiOctets.read_write .seconds (Nat.lt_of_le_of_lt hs (by decide))]
      simp only [bind, Except.bind, UInt8.ofNat_toNat]
      exact if_pos ⟨UInt8.le_iff_toNat_le.2 hm, UInt8.le_iff_toNat_le.2 hs⟩
    · cases h

/-- The format and the flags share an octet. -/
theorem EnhancedValidity.indicator (singleShot : Bool) (format : UInt8) (h : format ≤ 3) :
    Bits.has (Bits.flag singleShot singleShotBit ||| format) 0x80 = false ∧
      (Bits.flag singleShot singleShotBit ||| format) &&& 0x07 = format ∧
      Bits.has (Bits.flag singleShot singleShotBit ||| format) singleShotBit = singleShot := by
  revert format
  cases singleShot <;> decide +kernel

theorem EnhancedValidity.encode_eq_ok {v : EnhancedValidity} {s : Octets} : v.encode = .ok s ↔
    ∃ p, v.period.octets = .ok p ∧
      s = [Bits.flag v.singleShot singleShotBit ||| p.1, p.2.1, p.2.2.1, p.2.2.2, 0, 0, 0] := by
  simp only [encode, bind_eq_ok, pure_eq_ok]

theorem reads_enhancedValidity {v : EnhancedValidity} {s : Octets} (h : v.encode = .ok s) :
    Reads EnhancedValidity.decoder s v := by
  obtain ⟨⟨format, first, second, third⟩, hp, rfl⟩ := EnhancedValidity.encode_eq_ok.1 h
  obtain ⟨hformat, hread⟩ := EnhancedPeriod.ofOctets_octets hp
  obtain ⟨hext, hbits, hshot⟩ := EnhancedValidity.indicator v.singleShot format hformat
  refine Reads.last (d := Decoder.octets EnhancedValidity.octetCount) (reads_octets rfl) ?_
  simp only [hext, hbits, hshot]
  exact (reads_ofExcept hread).last (reads_pure _)

theorem ValidityPeriod.length_encode {v : ValidityPeriod} {s : Octets} (h : v.encode = .ok s) :
    s.length ≤ 7 := by
  cases v with
  | absent | relative octet => cases h; exact Nat.le_of_ble_eq_true rfl
  | absolute deadline => exact Nat.le_of_eq (Timestamp.length_encode h)
  | enhanced field =>
    obtain ⟨_, -, rfl⟩ := EnhancedValidity.encode_eq_ok.1 h
    exact Nat.le_refl _

/-- A validity period is read in the form that its two bits name. -/
theorem reads_validity {v : ValidityPeriod} {s : Octets} {format : UInt8} (h : v.encode = .ok s)
    (hformat : format.toNat % 4 = v.formatBits.toNat) :
    Reads (ValidityPeriod.decoder format) s v := by
  unfold ValidityPeriod.decoder
  rw [hformat]
  cases v with
  | absent => cases h; exact reads_pure _
  | relative octet => cases h; exact (reads_octet _).last (reads_pure _)
  | absolute deadline => exact (reads_timestamp h).last (reads_pure _)
  | enhanced field => exact (reads_enhancedValidity h).last (reads_pure _)

end ShortMessage
