import SwiftLink.Protocol.BitSerial
import SwiftLink.Protocol.Canonical

/-!
# Which corruptions the checksum catches

The CRC is a shift register fed with the bits of the packet with its checksum field blanked out
(`crc32ExcludingChecksum_eq_run`).  What a corruption does to it therefore depends on the corruption
alone and not on the packet (`crc_difference`), and a burst of at most 32 bits outside the checksum
field always changes it (`crc_ne_of_burst`).

A corruption of the checksum field is caught for the opposite reason: it leaves the CRC as it was
and changes the value it is compared with.

The checks before the CRC only reject more, and nothing here needs them: had the decoder accepted,
the CRC would have matched.
-/

namespace SwiftLink

open BitString (bitAt bits flipBit)

namespace Crc32

open ShiftRegister (run)

/-! ## What a corruption does to the CRC -/

@[simp] lemma blank_length (checksumOffset : ℕ) (packet : Bytes) :
    (blank checksumOffset packet).length = packet.length := by
  simp [blank]

lemma bitAt_blank (checksumOffset : ℕ) (packet : Bytes) (i : ℕ) :
    bitAt (blank checksumOffset packet) i
      = (bitAt packet i && !decide (8 * checksumOffset ≤ i ∧ i < 8 * (checksumOffset + 4))) := by
  have hfield : (checksumOffset ≤ i / 8 ∧ i / 8 < checksumOffset + 4)
      ↔ (8 * checksumOffset ≤ i ∧ i < 8 * (checksumOffset + 4)) := by omega
  simp only [bitAt, blank, List.getD_eq_getElem?_getD, List.getElem?_mapIdx, ← hfield]
  cases packet[i / 8]? with
  | none => simp
  | some b => by_cases hin : checksumOffset ≤ i / 8 ∧ i / 8 < checksumOffset + 4 <;> simp [hin]

/-- **The CRC is linear**: the CRCs of two packets of one length differ by what the bits they
differ in leave in a register of zeros. -/
lemma crc_difference {xs ys : Bytes} (checksumOffset : ℕ) (hlen : xs.length = ys.length) :
    crc32ExcludingChecksum xs checksumOffset ^^^ crc32ExcludingChecksum ys checksumOffset
      = run kPolynomial 0 ((List.range (8 * xs.length)).map fun i =>
          bitAt (blank checksumOffset xs) i ^^ bitAt (blank checksumOffset ys) i) := by
  have hcancel : ∀ a b c : BitVec 32, (a ^^^ c) ^^^ (b ^^^ c) = a ^^^ b := by
    intro a b c
    rw [BitVec.xor_assoc, BitVec.xor_comm b c, ← BitVec.xor_assoc c, BitVec.xor_self,
      BitVec.zero_xor]
  rw [crc32ExcludingChecksum_eq_run, crc32ExcludingChecksum_eq_run, hcancel,
    ShiftRegister.run_xor kPolynomial _ _ (by simp [bits, hlen]), BitVec.xor_self, bits, bits,
    blank_length, blank_length, ← hlen, List.zipWith_map, List.zipWith_self]
  rfl

end Crc32

/-! ## Corruptions -/

/-- Two byte strings differ at most in the bits from `first` on, `length` of them. -/
def ConfinedTo (xs ys : Bytes) (first length : ℕ) : Prop :=
  ∀ i, bitAt xs i ≠ bitAt ys i → first ≤ i ∧ i < first + length

/-- The corruptions the checksum is there for: a burst of at most 32 consecutive bits outside the
checksum field, or anything inside it. -/
inductive SmallCorruption (wire got : Bytes) : Prop
  | burst (first length : ℕ) (hlength : length ≤ 32)
      (houtside : first + length ≤ 8 * Offset.checksum ∨ 8 * (Offset.checksum + 4) ≤ first)
      (hconfined : ConfinedTo wire got first length)
  | checksum (hconfined : ConfinedTo wire got (8 * Offset.checksum) 32)

/-- **A short burst outside the checksum field changes the CRC.** -/
lemma crc_ne_of_burst {wire got : Bytes} {first length : ℕ} (hlen : got.length = wire.length)
    (hne : got ≠ wire) (hlength : length ≤ 32)
    (houtside : first + length ≤ 8 * Offset.checksum ∨ 8 * (Offset.checksum + 4) ≤ first)
    (hconfined : ConfinedTo wire got first length) :
    Crc32.crc32ExcludingChecksum wire Offset.checksum
      ≠ Crc32.crc32ExcludingChecksum got Offset.checksum := by
  obtain ⟨i, hi, hbit⟩ : ∃ i < 8 * wire.length, bitAt wire i ≠ bitAt got i := by
    by_contra hnone
    push Not at hnone
    exact hne (BitString.ext_bitAt hlen.symm hnone).symm
  rw [Ne, ← BitVec.xor_eq_zero_iff, Crc32.crc_difference _ hlen.symm]
  have hblank : ∀ j, (bitAt (Crc32.blank Offset.checksum wire) j
      ^^ bitAt (Crc32.blank Offset.checksum got) j) = true → bitAt wire j ≠ bitAt got j := by
    intro j hj heq
    rw [Crc32.bitAt_blank, Crc32.bitAt_blank, heq, Bool.xor_self] at hj
    exact Bool.noConfusion hj
  refine ShiftRegister.run_range_ne_zero Crc32.kPolynomial_msb hlength
    (fun j hj => hconfined j (hblank j hj)) hi ?_
  -- the differing bit is outside the field, so blanking leaves it
  have hfield : ¬ (8 * Offset.checksum ≤ i ∧ i < 8 * (Offset.checksum + 4)) := by
    have := hconfined i hbit
    omega
  simpa [Crc32.bitAt_blank, hfield] using hbit

/-- A corruption of the checksum field alone changes the stored checksum. -/
lemma stored_ne_of_checksum {wire got : Bytes} (hlen : got.length = wire.length) (hne : got ≠ wire)
    (hconfined : ConfinedTo wire got (8 * Offset.checksum) 32) :
    readBe32 wire Offset.checksum ≠ readBe32 got Offset.checksum := by
  intro hstored
  refine hne (BitString.ext_bitAt hlen fun i hi => ?_)
  by_contra hbit
  obtain ⟨hfirst, hlast⟩ := hconfined i (Ne.symm hbit)
  have hbytes := congrArg be32 hstored
  rw [be32_readBe32, be32_readBe32] at hbytes
  simp only [List.cons.injEq, and_true] at hbytes
  obtain ⟨h0, h1, h2, h3⟩ := hbytes
  have hbyte : byteAt got (i / 8) = byteAt wire (i / 8) := by
    simp only [Offset.checksum] at *
    have hcases : i / 8 = 36 ∨ i / 8 = 37 ∨ i / 8 = 38 ∨ i / 8 = 39 := by omega
    rcases hcases with h | h | h | h
    · rw [h, h0]
    · rw [h, h1]
    · rw [h, h2]
    · rw [h, h3]
  exact hbit (by rw [bitAt, bitAt]; exact congrArg (fun b => BitVec.getLsbD b (i % 8)) hbyte)

/-- and leaves the CRC as it was. -/
lemma crc_eq_of_checksum {wire got : Bytes} (hlen : got.length = wire.length)
    (hconfined : ConfinedTo wire got (8 * Offset.checksum) 32) :
    Crc32.crc32ExcludingChecksum wire Offset.checksum
      = Crc32.crc32ExcludingChecksum got Offset.checksum := by
  have hblank : Crc32.blank Offset.checksum wire = Crc32.blank Offset.checksum got := by
    refine BitString.ext_bitAt (by simp [hlen]) fun i _ => ?_
    rw [Crc32.bitAt_blank, Crc32.bitAt_blank]
    by_cases hin : 8 * Offset.checksum ≤ i ∧ i < 8 * (Offset.checksum + 4)
    · simp [hin]
    · have hsame : bitAt wire i = bitAt got i := by
        by_contra hbit
        exact hin (by have := hconfined i hbit; omega)
      rw [hsame]
  rw [Crc32.crc32ExcludingChecksum_eq_run, Crc32.crc32ExcludingChecksum_eq_run, hblank]

/-- A burst outside the checksum field leaves the stored checksum as it was. -/
lemma stored_eq_of_burst {wire got : Bytes} {first length : ℕ}
    (houtside : first + length ≤ 8 * Offset.checksum ∨ 8 * (Offset.checksum + 4) ≤ first)
    (hconfined : ConfinedTo wire got first length) :
    readBe32 wire Offset.checksum = readBe32 got Offset.checksum := by
  have hbyte : ∀ k, Offset.checksum ≤ k → k < Offset.checksum + 4 →
      byteAt wire k = byteAt got k := by
    intro k hfirst hlast
    refine BitVec.eq_of_getLsbD_eq fun j hj => ?_
    have hbit : bitAt wire (8 * k + j) = bitAt got (8 * k + j) := by
      by_contra hdiffer
      have := hconfined _ hdiffer
      omega
    rwa [bitAt, bitAt, show (8 * k + j) / 8 = k by omega, show (8 * k + j) % 8 = j by omega] at hbit
  rw [readBe32, readBe32, hbyte _ (by omega) (by omega), hbyte _ (by omega) (by omega),
    hbyte _ (by omega) (by omega), hbyte _ (by omega) (by omega)]

/-- What is sent carries its own CRC. -/
lemma serialize_checksum {header : PacketHeader} {payload : Bytes}
    (hlen : payload.length ≤ kMaxPayloadSize) :
    Crc32.crc32ExcludingChecksum (serialize header payload) Offset.checksum
      = readBe32 (serialize header payload) Offset.checksum := by
  have hwire : serialize header payload = wireFields header payload ++
      be32 (Crc32.crc32ExcludingChecksum (unsignedWire header payload) Offset.checksum)
        ++ payload :=
    serialize_eq hlen
  obtain ⟨-, -, -, -, -, -, -, -, -, -, hstored⟩ := read_wire _ hwire
  rw [hstored, hwire, crc_wire]

/-- A small corruption of a packet and the packet cannot both carry their own CRC. -/
lemma SmallCorruption.mismatch {wire got : Bytes} (h : SmallCorruption wire got)
    (hlen : got.length = wire.length) (hne : got ≠ wire)
    (hwire : Crc32.crc32ExcludingChecksum wire Offset.checksum = readBe32 wire Offset.checksum) :
    Crc32.crc32ExcludingChecksum got Offset.checksum ≠ readBe32 got Offset.checksum := by
  cases h with
  | burst first length hlength houtside hconfined =>
      have hcrc := crc_ne_of_burst hlen hne hlength houtside hconfined
      rw [← stored_eq_of_burst houtside hconfined, ← hwire]
      exact hcrc.symm
  | checksum hconfined =>
      rw [← crc_eq_of_checksum hlen hconfined, hwire]
      exact stored_ne_of_checksum hlen hne hconfined

/-- A flip is a burst of one bit, or lies in the checksum field. -/
lemma SmallCorruption.flipBit {wire : Bytes} {i : ℕ} (hi : i < 8 * wire.length) :
    SmallCorruption wire (flipBit wire i) := by
  have hdiffer : ∀ j, bitAt wire j ≠ bitAt (BitString.flipBit wire i) j → j = i := by
    intro j hj
    by_contra hne
    rw [BitString.bitAt_flipBit hi, decide_eq_false hne, Bool.xor_false] at hj
    exact hj rfl
  by_cases hfield : 8 * Offset.checksum ≤ i ∧ i < 8 * (Offset.checksum + 4)
  · refine .checksum fun j hj => ?_
    obtain rfl := hdiffer j hj
    omega
  · refine .burst i 1 (by norm_num) (by omega) fun j hj => ?_
    obtain rfl := hdiffer j hj
    omega

/-- **Small corruptions are always caught.**  A datagram of the same length that differs from what
was serialised, in a burst of at most 32 bits outside the checksum field or only inside it, is
rejected; in particular every single-bit flip is.

Nothing is asked of the header, and an inexpressible payload leaves nothing to corrupt. -/
theorem small_corruption_rejected (header : PacketHeader) (payload : Bytes) :
    (∀ got : Bytes, got.length = (serialize header payload).length →
      got ≠ serialize header payload → SmallCorruption (serialize header payload) got →
      ∃ error, deserialize got = .error error) ∧
    ∀ i < 8 * (serialize header payload).length,
      ∃ error, deserialize (flipBit (serialize header payload) i) = .error error := by
  have hreject : ∀ got : Bytes, got.length = (serialize header payload).length →
      got ≠ serialize header payload → SmallCorruption (serialize header payload) got →
      ∃ error, deserialize got = .error error := by
    intro got hlen hne hsmall
    cases hgot : deserialize got with
    | error error => exact ⟨error, rfl⟩
    | ok packet =>
        exfalso
        have hdecoded := deserialize_decodes hgot
        by_cases hpayload : payload.length ≤ kMaxPayloadSize
        · exact hsmall.mismatch hlen hne (serialize_checksum hpayload) hdecoded.checksum
        · -- nothing was serialised, and the decoder wants a header
          have hempty : serialize header payload = [] := by
            rw [serialize, if_pos (not_le.mp hpayload)]
          have := hdecoded.size_le
          rw [hlen, hempty, kHeaderWireSize] at this
          simp at this
  refine ⟨hreject, fun i hi => hreject _ (by simp) ?_ (.flipBit hi)⟩
  intro hsame
  have hflipped := BitString.bitAt_flipBit hi i
  rw [hsame] at hflipped
  cases hbit : bitAt (serialize header payload) i <;> simp [hbit] at hflipped

/-- A burst that starts in the payload of a DATA packet: the first byte replaced by its
complement. -/
example : deserialize ((serialize { packetType := .data } [0x55, 0x66]).set 40 0xAA)
    = .error .checksumMismatch := by
  decide +kernel

end SwiftLink
