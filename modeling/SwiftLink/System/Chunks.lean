import SwiftLink.Transfer.Chunking
import SwiftLink.Transfer.Record

/-!
# A file and its chunks

The sender cuts the file at multiples of the chunk size; the receiver writes each chunk at its
offset, in whatever order they come.  This module is the arithmetic between the two: the chunks lie
inside the file, do not overlap, agree with it byte for byte, and together make it up.
-/

namespace SwiftLink

open ByteFile

namespace Job

/-- The sizes are of the machine's range: the source has both in 64-bit variables. -/
structure InRange (job : Job) : Prop where
  size_lt : job.fileSize < 2 ^ 64
  chunk_lt : job.config.chunkSize < 2 ^ 64

/-- The write that stores a chunk. -/
def chunkWrite (job : Job) (t : ℕ) : Write Byte where
  off := job.chunkOffset t
  bytes := job.chunk t

/-- The packet stores one of the job's chunks. -/
structure Carries (job : Job) (p : Packet) : Prop where
  seq_lt : p.seq < job.totalChunks
  write_eq : p.toWrite = job.chunkWrite p.seq

end Job

namespace Job.InRange

variable {job : Job} (h : job.InRange) {t : ℕ}
include h

/-- When the 64-bit sum in `chunk_count` wraps, the count it gives is zero. -/
lemma count_spec :
    0 < job.config.chunkSize ∧ ∀ t < job.totalChunks, t * job.config.chunkSize < job.fileSize := by
  have hcount : chunkCount job.fileSize job.config.chunkSize = some job.totalChunks := job.count
  have hsize := h.size_lt
  have hchunk := h.chunk_lt
  by_cases hwrap : job.fileSize + job.config.chunkSize ≤ 2 ^ 64
  · obtain ⟨hpos, -, -, hlt⟩ := chunkCount_some hcount hwrap
    exact ⟨hpos, hlt⟩
  · rw [chunkCount_of_wrap hsize hchunk (not_le.mp hwrap)] at hcount
    have hnone := Option.some.inj hcount
    exact ⟨by omega, fun t ht => by omega⟩

lemma chunk_pos : 0 < job.config.chunkSize := h.count_spec.1

lemma offset_lt (ht : t < job.totalChunks) : t * job.config.chunkSize < job.fileSize :=
  h.count_spec.2 t ht

lemma chunkOffset_eq (ht : t < job.totalChunks) :
    job.chunkOffset t = t * job.config.chunkSize := by
  rw [chunkOffset_eq_fillOffset]
  exact fillOffset_eq h.size_lt (h.offset_lt ht)

lemma chunkWant_eq (ht : t < job.totalChunks) :
    job.chunkWant t = min job.config.chunkSize (job.fileSize - t * job.config.chunkSize) := by
  rw [chunkWant_eq_fillWant]
  exact fillWant_eq h.size_lt (h.offset_lt ht)

/-- **A chunk lies inside the file and is not empty.** -/
lemma chunk_length (ht : t < job.totalChunks) :
    (job.chunk t).length = min job.config.chunkSize (job.fileSize - t * job.config.chunkSize) ∧
      0 < (job.chunk t).length ∧ job.chunkOffset t + (job.chunk t).length ≤ job.fileSize := by
  have hlt := h.offset_lt ht
  have hpos := h.chunk_pos
  have hdata : job.data.length = job.fileSize := rfl
  have hlength : (job.chunk t).length
      = min job.config.chunkSize (job.fileSize - t * job.config.chunkSize) := by
    rw [chunk, List.length_take, List.length_drop, h.chunkWant_eq ht, h.chunkOffset_eq ht, hdata]
    omega
  rw [hlength, h.chunkOffset_eq ht]
  omega

/-- A packet that carries a chunk stays within the file. -/
lemma carried_le {packet : Packet} (hcarries : job.Carries packet) :
    packet.header.byteOffset.toNat + packet.payload.length ≤ job.fileSize := by
  have hstop : packet.toWrite.stop ≤ job.fileSize := by
    rw [hcarries.write_eq]
    exact (h.chunk_length hcarries.seq_lt).2.2
  exact hstop

/-- **A chunk agrees with the file.** -/
lemma chunk_getD (ht : t < job.totalChunks) {i : ℕ} (hi : i ∈ (job.chunkWrite t).range) :
    (job.chunkWrite t).bytes.getD (i - (job.chunkWrite t).off) 0 = job.data.getD i 0 := by
  obtain ⟨hlow, hhigh⟩ : job.chunkOffset t ≤ i ∧ i < job.chunkOffset t + (job.chunk t).length :=
    Finset.mem_Ico.mp hi
  have hin : i < job.data.length := lt_of_lt_of_le hhigh (h.chunk_length ht).2.2
  have hwithin : i - job.chunkOffset t < (job.chunk t).length := by omega
  rw [show (job.chunkWrite t).bytes = job.chunk t from rfl,
    show (job.chunkWrite t).off = job.chunkOffset t from rfl,
    List.getD_eq_getElem _ _ hwithin, List.getD_eq_getElem _ _ hin]
  simp only [chunk, List.getElem_take, List.getElem_drop]
  congr 1
  omega

/-- **Different chunks do not overlap.** -/
lemma chunk_disjoint {u : ℕ} (ht : t < job.totalChunks) (hu : u < job.totalChunks) (hne : t ≠ u) :
    Disjoint (job.chunkWrite t).range (job.chunkWrite u).range := by
  have horder : ∀ {a b : ℕ}, a < job.totalChunks → b < job.totalChunks → a < b →
      ∀ i ∈ (job.chunkWrite a).range, i ∉ (job.chunkWrite b).range := by
    intro a b ha hb hab i hia hib
    have hstop := (Finset.mem_Ico.mp hia).2
    have hstart := (Finset.mem_Ico.mp hib).1
    simp only [Write.stop, chunkWrite, (h.chunk_length ha).1, h.chunkOffset_eq ha,
      h.chunkOffset_eq hb] at hstop hstart
    have hstep : (a + 1) * job.config.chunkSize ≤ b * job.config.chunkSize :=
      Nat.mul_le_mul_right _ hab
    rw [Nat.add_mul, Nat.one_mul] at hstep
    omega
  rw [Finset.disjoint_left]
  rcases Nat.lt_or_gt_of_ne hne with hlt | hgt
  · exact horder ht hu hlt
  · exact fun i hi hi' => horder hu ht hgt i hi' hi

/-- **Every byte lies in a chunk**, unless the count has wrapped. -/
lemma exists_chunk (hwrap : job.fileSize + job.config.chunkSize ≤ 2 ^ 64) {i : ℕ}
    (hi : i < job.fileSize) :
    i / job.config.chunkSize < job.totalChunks ∧
      i ∈ (job.chunkWrite (i / job.config.chunkSize)).range := by
  obtain ⟨hpos, -, hreach, -⟩ := chunkCount_some job.count hwrap
  have ht : i / job.config.chunkSize < job.totalChunks :=
    (Nat.div_lt_iff_lt_mul hpos).mpr (lt_of_lt_of_le hi hreach)
  have hdiv := Nat.div_add_mod i job.config.chunkSize
  have hmod := Nat.mod_lt i hpos
  rw [Nat.mul_comm] at hdiv
  refine ⟨ht, Finset.mem_Ico.mpr ?_⟩
  simp only [Write.stop, chunkWrite, (h.chunk_length ht).1, h.chunkOffset_eq ht]
  omega

variable {ps : List Packet}

/-- Wherever the chunks received so far reach, the file under construction agrees with the
original. -/
lemma assembled_getD (hps : ∀ p ∈ ps, job.Carries p) {i : ℕ} {p : Packet} (hp : p ∈ ps)
    (hi : i ∈ p.toWrite.range) :
    (writeAll 0 (ps.map Packet.toWrite)).getD i 0 = job.data.getD i 0 := by
  refine writeAll_getD_of_agree 0 (fun w hw j hj => ?_) i ⟨_, List.mem_map_of_mem hp, hi⟩
  obtain ⟨q, hq, rfl⟩ := List.mem_map.mp hw
  have hcarries := hps q hq
  rw [hcarries.write_eq] at hj ⊢
  exact h.chunk_getD hcarries.seq_lt hj

/-- **A received chunk can be read back**: it stands at its offset, whole and unaltered, whatever
else has been written around it. -/
lemma assembled_chunk (hps : ∀ p ∈ ps, job.Carries p) (ht : t ∈ ps.map Packet.seq) :
    ((writeAll 0 (ps.map Packet.toWrite)).drop (job.chunkOffset t)).take (job.chunk t).length
      = job.chunk t := by
  obtain ⟨p, hp, rfl⟩ := List.mem_map.mp ht
  obtain ⟨hlt, hwrite⟩ := hps p hp
  have hpos := (h.chunk_length hlt).2.1
  have hbytes : p.toWrite.bytes ≠ [] := by
    rw [hwrite]
    exact List.ne_nil_of_length_pos hpos
  have hstop : p.toWrite.stop ≤ (writeAll 0 (ps.map Packet.toWrite)).length :=
    stop_le_writeAll_length 0 (List.mem_map_of_mem hp) hbytes
  rw [hwrite] at hstop
  simp only [Write.stop, chunkWrite] at hstop
  have hlength : (((writeAll 0 (ps.map Packet.toWrite)).drop (job.chunkOffset p.seq)).take
      (job.chunk p.seq).length).length = (job.chunk p.seq).length := by
    rw [List.length_take, List.length_drop]
    omega
  refine ext_getD 0 hlength fun i hi => ?_
  rw [hlength] at hi
  have hrange : job.chunkOffset p.seq + i ∈ (job.chunkWrite p.seq).range :=
    Finset.mem_Ico.mpr ⟨Nat.le_add_right _ _, Nat.add_lt_add_left hi _⟩
  have hagree := h.assembled_getD hps hp (hwrite ▸ hrange)
  have hchunk := h.chunk_getD hlt hrange
  rw [show (job.chunkWrite p.seq).off = job.chunkOffset p.seq from rfl, Nat.add_sub_cancel_left]
    at hchunk
  rw [show (job.chunkWrite p.seq).bytes = job.chunk p.seq from rfl] at hchunk
  rw [hchunk, ← hagree]
  simp [List.getD_eq_getElem?_getD, hi, List.getElem?_drop]

/-- The chunks received so far are as many bytes as they cover. -/
lemma assembled_pairwise (hps : ∀ p ∈ ps, job.Carries p) (hnodup : (ps.map Packet.seq).Nodup) :
    (ps.map Packet.toWrite).Pairwise fun v w => Disjoint v.range w.range := by
  rw [List.pairwise_map]
  rw [List.Nodup, List.pairwise_map] at hnodup
  refine hnodup.imp_of_mem fun {p q} hp hq hne => ?_
  rw [(hps p hp).write_eq, (hps q hq).write_eq]
  exact h.chunk_disjoint (hps p hp).seq_lt (hps q hq).seq_lt hne

/-- **All the chunks make up the file**, and their lengths add up to its size. -/
lemma assembled_eq (hwrap : job.fileSize + job.config.chunkSize ≤ 2 ^ 64)
    (hps : ∀ p ∈ ps, job.Carries p) (hnodup : (ps.map Packet.seq).Nodup)
    (hall : ∀ t < job.totalChunks, t ∈ ps.map Packet.seq) :
    writeAll 0 (ps.map Packet.toWrite) = job.data ∧
      total (ps.map Packet.toWrite) = job.fileSize := by
  have hcover : ∀ i < job.fileSize, ∃ p ∈ ps, i ∈ p.toWrite.range := by
    intro i hi
    obtain ⟨ht, hrange⟩ := h.exists_chunk hwrap hi
    obtain ⟨p, hp, hseq⟩ := List.mem_map.mp (hall _ ht)
    rw [← hseq, ← (hps p hp).write_eq] at hrange
    exact ⟨p, hp, hrange⟩
  have hinside : ∀ w ∈ ps.map Packet.toWrite, w.stop ≤ job.fileSize := by
    intro w hw
    obtain ⟨p, hp, rfl⟩ := List.mem_map.mp hw
    exact h.carried_le (hps p hp)
  have hcovered : covered (ps.map Packet.toWrite) = Finset.range job.fileSize := by
    ext i
    rw [mem_covered, Finset.mem_range]
    constructor
    · rintro ⟨w, hw, hi⟩
      exact lt_of_lt_of_le (Finset.mem_Ico.mp hi).2 (hinside w hw)
    · intro hi
      obtain ⟨p, hp, hrange⟩ := hcover i hi
      exact ⟨_, List.mem_map_of_mem hp, hrange⟩
  have htotal : total (ps.map Packet.toWrite) = job.fileSize := by
    rw [← (card_covered_eq_iff _).mpr (h.assembled_pairwise hps hnodup), hcovered,
      Finset.card_range]
  refine ⟨ext_getD 0 ?_ fun i hi => ?_, htotal⟩
  · refine le_antisymm (writeAll_length_le 0 fun w hw _ => hinside w hw) ?_
    -- the last byte was written by some chunk, and the file reaches at least that far
    rcases Nat.eq_zero_or_pos job.data.length with hzero | hpos
    · omega
    · obtain ⟨p, hp, hrange⟩ := hcover (job.data.length - 1) (Nat.sub_lt hpos Nat.one_pos)
      have hlast := Finset.mem_Ico.mp hrange
      have hne : p.toWrite.bytes ≠ [] := by
        intro hnil
        simp only [Write.stop, hnil, List.length_nil] at hlast
        omega
      have hstop := stop_le_writeAll_length 0 (List.mem_map_of_mem hp) hne
      omega
  · have hlt : i < job.fileSize :=
      lt_of_lt_of_le hi (writeAll_length_le 0 fun w hw _ => hinside w hw)
    obtain ⟨p, hp, hrange⟩ := hcover i hlt
    exact h.assembled_getD hps hp hrange

end Job.InRange

end SwiftLink
