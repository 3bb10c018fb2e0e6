import ShortMessage.Proofs.Codec.Relay

/-!
# What is read can be written again

The decoders accept much that no encoder writes: reserved bits, a header without elements, an
indicator that announces nothing, texts in more units than they need.  Whatever value they find can
be written in no more octets than were read, and a reader finds it unchanged (`Rewrites`).  Each
field says so of itself with `Takes`.  Only a name with a numbering plan is read and cannot be
written (`Address.Plain`).
-/

namespace ShortMessage

open Decoder

/-- The value can be written in no more octets than these, and a reader finds it as it is. -/
structure Rewrites {α : Type} (encode : α → Except Fault Octets) (reread : α → α) (a : α)
    (t : Octets) : Prop where
  written : ∃ s, encode a = .ok s ∧ s.length ≤ t.length
  reread_eq : reread a = a

theorem Rewrites.map {α β : Type} {encode : α → Except Fault Octets} {reread : α → α}
    {encode' : β → Except Fault Octets} {reread' : β → β} {a : α} {t : Octets}
    (h : Rewrites encode reread a t) (f : α → β) (he : ∀ a, encode' (f a) = encode a)
    (hr : ∀ a, reread' (f a) = f (reread a)) : Rewrites encode' reread' (f a) t :=
  ⟨he a ▸ h.written, (hr a).trans (congrArg f h.reread_eq)⟩

/-! ## Coding schemes, timestamps and validity periods -/

theorem takes_dataCoding : Takes (fun _ t => t.length = 1) DataCoding.decoder := by
  refine takes_octet.bind fun b t ht => ?_
  subst ht
  split
  · exact takes_pure rfl
  · exact takes_fail _

/-- Two digits are less than a hundred, so they can be written again. -/
theorem SemiOctets.lt_of_read {part : ClockPart} {b : UInt8} {n : Nat} (h : read part b = .ok n) :
    n < 100 := by
  unfold read read? at h
  dsimp only at h
  split at h
  · rename_i hn
    split at hn
    · cases hn
      cases h
      omega
    · cases hn
  · cases h

/-- What is read of a time is checked before it is one. -/
theorem Timestamp.validate_of_ofOctets {year month day hour minute second zone : UInt8}
    {t : Timestamp} (h : ofOctets year month day hour minute second zone = .ok t) :
    t.validate = .ok () := by
  simp only [ofOctets, bind_eq_ok, pure_eq_ok] at h
  obtain ⟨_, -, _, -, _, -, _, -, _, -, _, -, _, -, _, hvalid, rfl⟩ := h
  exact hvalid

/-- A time that was read can be written. -/
theorem takes_timestamp :
    Takes (fun time t => ∃ s, time.encode = .ok s ∧ s.length ≤ t.length) Timestamp.decoder := by
  refine (takes_octets Timestamp.octetCount).bind fun s t ht => ?_
  obtain ⟨rfl, hlength⟩ := ht
  split
  · refine (takes_ofExcept _).mono fun time t' ht' => ?_
    obtain ⟨htime, rfl⟩ := ht'
    exact ⟨_, Timestamp.encode_eq_ok.2 ⟨Timestamp.validate_of_ofOctets htime, rfl⟩, Nat.le_refl _⟩
  · exact takes_fail _

/-- A period that was read keeps to the bounds of its format. -/
theorem EnhancedPeriod.octets_of_ofOctets {format first second third : UInt8} {p : EnhancedPeriod}
    (h : ofOctets format first second third = .ok p) : ∃ r, p.octets = .ok r := by
  unfold ofOctets at h
  split at h
  · cases h; exact ⟨_, rfl⟩
  · cases h; exact ⟨_, rfl⟩
  · cases h; exact ⟨_, rfl⟩
  · simp only [bind_eq_ok] at h
    obtain ⟨hours, hh, minutes, -, seconds, -, h⟩ := h
    split at h
    · rename_i hrange
      cases h
      have hlt := SemiOctets.lt_of_read hh
      have hle : UInt8.ofNat hours ≤ 99 := by
        rw [UInt8.le_iff_toNat_le, UInt8.toNat_ofNat']
        exact (Nat.mod_le _ _).trans (Nat.le_of_lt_succ hlt)
      exact ⟨_, if_pos ⟨hle, hrange⟩⟩
    · cases h
  · cases h

theorem takes_enhancedValidity :
    Takes (fun v t => ∃ s, v.encode = .ok s ∧ s.length ≤ t.length) EnhancedValidity.decoder := by
  refine (takes_octets EnhancedValidity.octetCount).bind fun s t ht => ?_
  obtain ⟨rfl, hlength⟩ := ht
  split
  · refine takes_ite (fun _ => takes_fail_bind _ _) fun _ => ?_
    refine (takes_ofExcept _).bind fun p t' ht' => ?_
    obtain ⟨hp, rfl⟩ := ht'
    obtain ⟨r, hr⟩ := EnhancedPeriod.octets_of_ofOctets hp
    refine takes_pure ⟨_, EnhancedValidity.encode_eq_ok.2 ⟨r, hr, rfl⟩, ?_⟩
    simpa [EnhancedValidity.octetCount] using hlength.ge
  · exact takes_fail _

/-- In no format does a period take more octets when it is written again. -/
theorem takes_validity (format : UInt8) :
    Takes (fun v t => ∃ s, v.encode = .ok s ∧ s.length ≤ t.length)
      (ValidityPeriod.decoder format) := by
  unfold ValidityPeriod.decoder
  split
  · exact takes_pure ⟨[], rfl, Nat.le_refl _⟩
  · refine takes_octet.bind fun b t ht => takes_pure ⟨[b], rfl, ?_⟩
    rw [ht]
    exact Nat.le_refl _
  · refine takes_timestamp.bind fun time t ht => takes_pure ?_
    rw [List.append_nil]
    exact ht
  · refine takes_enhancedValidity.bind fun v t ht => takes_pure ?_
    rw [List.append_nil]
    exact ht

/-! ## Addresses -/

namespace Address

/-- A sender's name has the unknown numbering plan, as all names that are written. -/
def Plain (a : Address) : Prop := a.typeOfNumber = .alphanumeric → a.plan = .unknown

/-- Only an address that is plain comes back as it was, because all that are written are. -/
theorem takes_address :
    Takes (fun a t => a.Plain → Rewrites encode reread a t) decoder := by
  refine takes_octet.bind fun length t ht => ?_
  subst ht
  refine takes_ite (fun _ => takes_fail_bind _ _) fun hfits => ?_
  refine takes_octet.bind fun kind t ht => ?_
  subst ht
  refine (takes_octets _).bind fun raw t ht => ?_
  obtain ⟨rfl, hraw⟩ := ht
  refine takes_ite (fun hton => ?_) fun hton => ?_
  · refine (takes_ofExcept _).bind fun units t ht => ?_
    obtain ⟨hunits, rfl⟩ := ht
    refine takes_pure fun hplain => ?_
    have hplan := hplain hton
    have hcount := Alphabet.length_unpack hunits
    obtain ⟨us, hus, hle⟩ := Alphabet.exists_unitsOf_textOf units
    refine ⟨⟨_, encode_text.2 ⟨⟨hton, hplan⟩, us, hus, ?_, rfl⟩, ?_⟩, ?_⟩
    · unfold maxOctets at *
      omega
    · simp only [List.length_cons, List.length_append, List.length_nil, Alphabet.length_pack,
        Alphabet.packedLength, UInt8.toNat_zero]
      omega
    · rw [reread]
      simp
  · refine (takes_ofExcept _).bind fun ds t ht => ?_
    obtain ⟨hds, rfl⟩ := ht
    refine takes_pure fun _ => ?_
    have hcount := Digits.length_unpackCount hds
    refine ⟨⟨_, encode_digits.2 ⟨⟨hton, ?_⟩, rfl⟩, ?_⟩, ?_⟩
    · unfold Digits.packedLength maxOctets at *
      omega
    · simp only [List.length_cons, List.length_append, List.length_nil, Digits.length_pack,
        Digits.packedLength]
      omega
    · rw [reread]
      simp

theorem takes_relayAddress :
    Takes (fun a? t => (a? = none → t.length = 1) ∧
      ∀ a, a? = some a → Rewrites encodeRelay reread a t) relayDecoder := by
  refine takes_relayForm.mono fun a? t h => ?_
  rcases h with ⟨rfl, rfl⟩ | ⟨a, rfl, @⟨kind, raw, ds, hfits, hds⟩⟩
  · exact ⟨fun _ => rfl, nofun⟩
  · refine ⟨nofun, ?_⟩
    rintro _ ⟨⟩
    have hcount := Digits.packedLength_unpack hds
    refine ⟨⟨_, encodeRelay_eq_ok.2 ⟨ds, rfl, hcount ▸ hfits, rfl⟩, ?_⟩, ?_⟩
    · rw [List.length_cons, List.length_cons, List.length_cons, List.length_cons,
        Digits.length_pack, hcount]
    · rw [reread]
      simp

end Address

/-! ## User data -/

/-- An element is written as the octets that it was read from. -/
theorem takes_element :
    Takes (fun e t => t ≠ [] ∧ e.encode = .ok t ∧ e.reread = e) Element.decoder := by
  refine takes_octet.bind fun key t ht => ?_
  subst ht
  refine takes_block.bind fun value t ht => ?_
  obtain ⟨hlt, rfl⟩ := ht
  refine takes_pure ⟨List.cons_ne_nil _ _, Element.encode_eq_ok.2 ?_, Element.reread_ofRaw _ _⟩
  rw [Element.value_ofRaw, Element.key_ofRaw]
  exact ⟨hlt, by simp⟩

/-- Elements that are read make up the octets that they are read from. -/
theorem Header.encodeElements_of_ofOctets {raw : Octets} {es : Header}
    (h : ofOctets raw = .ok es) : encodeElements es = .ok raw ∧ es.reread = es := by
  fun_induction ofOctets raw generalizing es with
  | case1 raw hraw =>
    cases h
    exact ⟨congrArg Except.ok (List.isEmpty_iff.1 hraw).symm, rfl⟩
  | case2 raw hraw fault hfault => cases h
  | case3 raw hraw e rest hread ih =>
    obtain ⟨es, hes, h⟩ := bind_eq_ok.1 h
    cases h
    obtain ⟨hencode, hreread⟩ := ih hes
    obtain ⟨t, rfl, -, he, hsame⟩ := takes_element _ _ _ hread
    refine ⟨?_, ?_⟩
    · rw [encodeElements, he, hencode]
      rfl
    · rw [Header.reread, List.map_cons, hsame]
      exact congrArg _ hreread

namespace UserData

variable {charset : CharacterSet} {limit length n : Nat} {header : Header} {data : Octets}
  {text : List Char}

/-- A header that is read takes no more octets when it is written; without elements it is left
out. -/
theorem encode_of_readHeader (h : readHeader data = .ok (header, n)) :
    n ≤ data.length ∧ header.reread = header ∧ ∃ s, header.encode = .ok s ∧ s.length ≤ n := by
  unfold readHeader at h
  split at h
  · cases h
  · rename_i count rest
    split at h
    · cases h
    · rename_i hcount
      obtain ⟨es, hes, h⟩ := bind_eq_ok.1 h
      cases h
      obtain ⟨hencode, hsame⟩ := Header.encodeElements_of_ofOctets hes
      have hraw : (rest.take count.toNat).length = count.toNat :=
        List.length_take_of_le (Nat.not_lt.1 hcount)
      refine ⟨Nat.succ_le_succ (Nat.not_lt.1 hcount), hsame, ?_⟩
      unfold Header.encode
      split
      · exact ⟨[], rfl, Nat.zero_le _⟩
      · rw [hencode]
        have hlt : (rest.take count.toNat).length < 256 := hraw.trans_lt count.toNat_lt
        exact ⟨_, if_pos hlt, Nat.le_of_eq (congrArg Nat.succ hraw)⟩

/-- A larger length octet announces no fewer octets. -/
theorem octetsOfLength_mono {m n : Nat} (h : m ≤ n) :
    octetsOfLength charset m ≤ octetsOfLength charset n := by
  cases charset <;> simp only [octetsOfLength] <;> omega

/-- A length that stays within the limit leaves room for the text behind the header. -/
theorem le_roomFor {size : Nat} (hlength : lengthFor charset n size ≤ length)
    (hlimit : octetsOfLength charset length ≤ limit) : size ≤ roomFor charset limit n := by
  cases charset <;> simp only [lengthFor, octetsOfLength, roomFor] at * <;> omega

theorem lengthFor_mono {m size : Nat} (h : m ≤ n) :
    lengthFor charset m size ≤ lengthFor charset n size := by
  cases charset <;> simp only [lengthFor, headerUnits] <;> omega

/-- A header and a text that stand in these octets can be written in no more of them. -/
theorem rewrites_of_readText {s : Octets} {b : UInt8}
    (ha : ∀ header ≤ limit, Admits charset limit header) (hheader : header.encode = .ok s)
    (hsame : header.reread = header) (hs : s.length ≤ n) (hn : n ≤ data.length)
    (hdata : data.length = octetsOfLength charset length) (hlimit : data.length ≤ limit)
    (htext : readText charset length n (data.drop n) = .ok text) :
    Rewrites (encode · charset limit) (reread · charset limit) ⟨header, text⟩ (b :: data) := by
  have hwhole : charset ≠ .gsm7 → n + (data.drop n).length = length := by
    intro hcharset
    rw [List.length_drop, Nat.add_sub_cancel' hn, hdata]
    cases charset with
    | gsm7 => exact absurd rfl hcharset
    | eightBit | ucs2 => rfl
  obtain ⟨size, hsize, hle⟩ := textSize?_of_readText htext hwhole
  have hle' := (lengthFor_mono hs).trans hle
  have hroom := le_roomFor hle' (hdata ▸ hlimit)
  obtain ⟨body, hbody, hstands⟩ := encodeText_of_fits hsize hroom (ha _ (by omega))
  have hmono : octetsOfLength charset _ ≤ octetsOfLength charset length := octetsOfLength_mono hle'
  have hoctets := hstands.octets ▸ hdata ▸ hmono
  refine ⟨⟨_, encode_eq_ok.2 ⟨s, _, body, hheader, by omega, hbody, rfl⟩, ?_⟩, ?_⟩
  · simp only [List.length_append, List.length_cons]
    omega
  · show UserData.mk _ _ = _
    rw [hsame, ← Header.length_encode hheader, cut_of_fits (fits_iff.2 ⟨size, hsize, hroom⟩)]

theorem takes_userData (hasHeader : Bool) (ha : ∀ header ≤ limit, Admits charset limit header) :
    Takes (Rewrites (encode · charset limit) (reread · charset limit))
      (decoder charset hasHeader limit) := by
  refine takes_octet.bind fun b t ht => ?_
  subst ht
  refine takes_ite (fun _ => takes_fail_bind _ _) fun hlimit => ?_
  refine (takes_octets _).bind fun data t ht => ?_
  obtain ⟨rfl, hdata⟩ := ht
  have hle : t.length ≤ limit := hdata ▸ Nat.not_lt.1 hlimit
  refine takes_ite (fun _ => ?_) fun _ => ?_
  · refine (takes_ofExcept _).bind fun p t' ht' => ?_
    obtain ⟨hread, rfl⟩ := ht'
    obtain ⟨hn, hsame, s, hs, hsn⟩ := encode_of_readHeader hread
    refine (takes_ofExcept _).bind fun text t' ht' => ?_
    obtain ⟨htext, rfl⟩ := ht'
    refine takes_pure ?_
    simpa using rewrites_of_readText (b := b) ha hs hsame hsn hn hdata hle htext
  · rw [pure_bind]
    refine (takes_ofExcept _).bind fun text t' ht' => ?_
    obtain ⟨htext, rfl⟩ := ht'
    refine takes_pure ?_
    simpa using rewrites_of_readText (b := b) ha rfl rfl (Nat.le_refl 0) (Nat.zero_le _) hdata hle
      htext

end UserData

end ShortMessage
