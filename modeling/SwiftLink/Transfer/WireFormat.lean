import SwiftLink.Transfer.Digest
import SwiftLink.Transfer.SelectiveRepeat

/-!
# Does the sender speak its own protocol?

`serialize` signals a payload the format cannot express by returning an empty vector.  `send_file`
calls it from three places and checks none of the results: the FIN's payload is a digest and always
fits, but the START carries `remote_name` and a DATA packet carries `chunk_size` bytes, both
straight from the configuration.  `chunk_count` refuses a chunk size of zero; nothing refuses one
that is too large, or a name that is too long.

Within the format's limits every datagram is the packet it was built from (`Job.wireOf_decodes`),
in every run.  Outside them the transfer goes ahead, and what is handed to `send_packet` is the
empty byte string, which no receiver can decode.
-/

namespace SwiftLink

/-! ## What `prepare` has checked -/

section

variable {read : ℕ → ℕ → ℕ → Option Bytes} {size bound : ℕ}

end

/-- The wire format can carry the name, and every chunk the file is cut into. -/
def SenderConfig.Expressible (config : SenderConfig) (fileSize : ℕ) : Prop :=
  config.remoteName.length ≤ kMaxPayloadSize ∧ min fileSize config.chunkSize ≤ kMaxPayloadSize

instance (config : SenderConfig) (fileSize : ℕ) : Decidable (config.Expressible fileSize) :=
  inferInstanceAs (Decidable (_ ∧ _))

namespace Job

/-- A decoded packet is the packet of the transfer it was built as. -/
def Means (job : Job) : OwnPacket → Packet → Prop
  | .control .start, p =>
      p.header.packetType = .start ∧ p.header.sessionId = job.config.sessionId ∧
        p.header.byteOffset.toNat = job.data.length ∧ p.payload = job.config.remoteName
  | .data sequence, p =>
      p.header.packetType = .data ∧ p.header.sessionId = job.config.sessionId ∧
        p.header.sequenceNumber.toNat = sequence ∧
        p.header.byteOffset.toNat = sequence * job.config.chunkSize ∧
        p.payload = (job.data.drop (sequence * job.config.chunkSize)).take job.config.chunkSize
  | .control .fin, p =>
      p.header.packetType = .fin ∧ p.header.sessionId = job.config.sessionId ∧
        p.header.byteOffset.toNat = job.data.length ∧ p.payload = Sha256.sha256 job.data

variable {job : Job} {sequence : ℕ}

/-- Every chunk that is counted begins inside the file, also where the sum in `chunk_count`
wraps. -/
lemma offset_lt (hs : sequence < job.totalChunks) :
    sequence * job.config.chunkSize < job.data.length := by
  have hcount := job.count
  simp only [chunkCount] at hcount
  split_ifs at hcount with hzero hlarge
  have htotal := Option.some.inj hcount
  have hle : (job.data.length + job.config.chunkSize - 1) % 2 ^ 64
      ≤ job.data.length + job.config.chunkSize - 1 := Nat.mod_le _ _
  have hmul : (sequence + 1) * job.config.chunkSize
      ≤ (job.data.length + job.config.chunkSize - 1) % 2 ^ 64 := by
    rw [← Nat.le_div_iff_mul_le (Nat.pos_of_ne_zero hzero), htotal]
    exact hs
  rw [Nat.add_mul, Nat.one_mul] at hmul
  omega

lemma chunkOffset_eq (hsize : job.data.length < 2 ^ 64) (hs : sequence < job.totalChunks) :
    job.chunkOffset sequence = sequence * job.config.chunkSize :=
  Nat.mod_eq_of_lt ((offset_lt hs).trans hsize)

lemma chunkWant_eq (hsize : job.data.length < 2 ^ 64) (hs : sequence < job.totalChunks) :
    job.chunkWant sequence
      = min (job.data.length - sequence * job.config.chunkSize) job.config.chunkSize := by
  have hlt := offset_lt hs
  have hremaining : (job.fileSize + 2 ^ 64 - job.chunkOffset sequence) % 2 ^ 64
      = job.data.length - sequence * job.config.chunkSize := by
    rw [chunkOffset_eq hsize hs, fileSize]
    omega
  rw [chunkWant, hremaining]
  split_ifs <;> omega

/-- The chunk is what the file holds there, and no longer than the file or the chunk size. -/
lemma chunk_eq (hsize : job.data.length < 2 ^ 64) (hs : sequence < job.totalChunks) :
    job.chunk sequence
        = (job.data.drop (sequence * job.config.chunkSize)).take job.config.chunkSize ∧
      (job.chunk sequence).length
        = min (job.data.length - sequence * job.config.chunkSize) job.config.chunkSize := by
  have hchunk : job.chunk sequence
      = (job.data.drop (sequence * job.config.chunkSize)).take job.config.chunkSize := by
    rw [chunk, chunkOffset_eq hsize hs, chunkWant_eq hsize hs, ← List.length_drop,
      List.take_eq_take_iff]
    omega
  refine ⟨hchunk, ?_⟩
  rw [hchunk, List.length_take, List.length_drop]
  omega

/-- **Within the limits every packet of the transfer is decoded to what it was built from.** -/
lemma wireOf_decodes (hsize : job.data.length < 2 ^ 64)
    (hfits : job.config.Expressible job.data.length) {packet : OwnPacket}
    (hdata : ∀ s, packet = .data s → s < job.totalChunks) :
    ∃ p, deserialize (job.wireOf packet) = .ok p ∧ job.Means packet p := by
  obtain ⟨hname, hchunk⟩ := hfits
  have hoffset : (BitVec.ofNat 64 job.fileSize).toNat = job.data.length := by
    rw [BitVec.toNat_ofNat]
    exact Nat.mod_eq_of_lt hsize
  cases packet with
  | control which =>
      cases which with
      | start =>
          exact ⟨_, deserialize_serialize ⟨rfl, rfl, rfl⟩ hname, rfl, rfl, hoffset, rfl⟩
      | fin =>
          have hdigest : job.digest = Sha256.sha256 job.data := by
            rw [job.digest_eq, digestOf_eq_sha256 le_rfl, List.take_length]
          have hlen : job.digest.length ≤ kMaxPayloadSize := by
            rw [job.digest_eq, digestOf_length]
            decide
          exact ⟨_, deserialize_serialize ⟨rfl, rfl, rfl⟩ hlen, rfl, rfl, hoffset, hdigest⟩
  | data s =>
      have hs := hdata s rfl
      obtain ⟨hpayload, hlength⟩ := chunk_eq hsize hs
      have hlen : (job.chunk s).length ≤ kMaxPayloadSize := by
        rw [hlength]
        omega
      refine ⟨_, deserialize_serialize ⟨rfl, rfl, rfl⟩ hlen, rfl, rfl, ?_, ?_, hpayload⟩
      · have hlt := Sender.totalChunks_lt job
        exact Nat.mod_eq_of_lt (hs.trans hlt)
      · show (BitVec.ofNat 64 (job.chunkOffset s)).toNat = _
        rw [BitVec.toNat_ofNat, chunkOffset_eq hsize hs]
        exact Nat.mod_eq_of_lt ((offset_lt hs).trans hsize)

end Job

/-! ## Whole runs -/

namespace Sender

variable {Q : TimerQueue} {job : Job} {stats : TransferStats}

/-- Only chunks that are counted are sent. -/
lemma Turn.data_lt {s s' : Sender Q} {env : SenderEnv} {sent : Option Sending}
    (h : Turn job s env s' sent) (hinv : s.Inv job) {x : Sending} (hx : sent = some x) {t : ℕ}
    (ht : x.packet = .data t) : t < job.totalChunks := by
  cases h with
  | control => cases hx; cases ht
  | first hphase hsend htotal =>
      cases hx
      cases ht
      exact htotal
  | again u rest hphase =>
      cases hx
      cases ht
      have hat := hinv.phase
      rw [hphase] at hat
      exact (hat.2 t List.mem_cons_self).2.1.trans_le hinv.next_le
  | _ => simp at hx

lemma sendings_data_lt {envs : List SenderEnv} {x : Sending}
    (hx : x ∈ (start Q job stats).sendings job envs) {t : ℕ} (ht : x.packet = .data t) :
    t < job.totalChunks := by
  induction envs using List.reverseRecOn with
  | nil => simp at hx
  | append_singleton envs env ih =>
      rcases mem_sendings_concat.mp hx with hold | hnew
      · exact ih hold
      · have hinv := start_run_inv Q job stats envs
        exact (step_turn hinv env).data_lt hinv hnew ht

end Sender

/-! ## What the sender says, in every run -/

section

variable (Q : TimerQueue) (config : SenderConfig) (data : Bytes) (openOk sizeOk : Bool)
  (reads : ℕ → List PreadOutcome)

end

end SwiftLink
