/-
  The packet format (src/tju_packet.c) read and written.

  `create_packet_buf` writes the fields one behind the other, the `get_…`
  functions read them at fixed offsets.  `codec` says that the two fit: every
  packet that is laid out is read back as it was given, and every buffer whose
  length field is right, with a header of 20 bytes, is laid out again from what
  is read in it.
-/
import TjuTcp.Packet

namespace Tju

open Lib

/-- All fields of a packet, as `get_src` to `get_ext` read them. -/
def getHeader (msg : Buf) : TjuHeader where
  sourcePort := getSrc msg
  destinationPort := getDst msg
  seqNum := getSeq msg
  ackNum := getAck msg
  hlen := getHlen msg
  plen := getPlen msg
  flags := getFlags msg
  advertisedWindow := getAdvertisedWindow msg
  ext := getExt msg

/-- `create_packet_buf` for the fields of a header and all of `data`. -/
def headerPacket (h : TjuHeader) (data : List Byte) : Buf :=
  createPacketBuf h.sourcePort h.destinationPort h.seqNum h.ackNum h.hlen h.plen h.flags
    h.advertisedWindow h.ext data data.length

variable {h : TjuHeader} {data : List Byte} {b : Buf}

theorem getHeader_wire (h : TjuHeader) (data : List Byte) : getHeader (wire h data) = h := by
  simp [getHeader]

/-- The header that is read from a buffer is laid out as the first 20 bytes of the buffer. -/
theorem headerBytes_getHeader (hb : 20 ≤ b.length) : headerBytes (getHeader b) = b.take 20 := by
  simp only [headerBytes, getHeader, getSrc, getDst, getSeq, getAck, getHlen, getPlen, getFlags,
    getAdvertisedWindow, getExt, be16_rd16, be32_rd32, take_eq_rd8 hb]
  rfl

/-- What is laid out is read back. -/
theorem headerPacket_read (h20 : 20 ≤ h.hlen.toNat) (hle : h.hlen.toNat ≤ h.plen.toNat)
    (hd : data.length = h.plen.toNat - h.hlen.toNat) :
    (headerPacket h data).length = h.plen.toNat ∧ getHeader (headerPacket h data) = h ∧
      (∀ i, 20 ≤ i → i < h.hlen.toNat → (headerPacket h data)[i]? = some 0) ∧
      (headerPacket h data).drop h.hlen.toNat = data := by
  have hlen : (headerBytes h).length = 20 := by simp [headerBytes]
  have hlay : headerPacket h data = wire h (List.replicate (h.hlen.toNat - 20) 0 ++ data) :=
    createPacketBuf_layout h20 hle hd
  rw [hlay]
  refine ⟨?_, getHeader_wire _ _, fun i h1 h2 => ?_, ?_⟩
  · simp
    omega
  · rw [wire, List.getElem?_append_right (by omega), List.getElem?_append_left (by simp; omega),
      List.getElem?_replicate_of_lt (by omega)]
  · rw [wire, ← List.append_assoc]
    exact List.drop_left' (by simp [hlen]; omega)

/-- What is read is laid out again. -/
theorem headerPacket_getHeader (hb : b.length = (getPlen b).toNat) (hh : getHlen b = 20)
    (hp : 20 ≤ (getPlen b).toNat) : headerPacket (getHeader b) (b.drop 20) = b := by
  have h20 : (getHeader b).hlen.toNat = 20 := congrArg BitVec.toNat hh
  have hlay : headerPacket (getHeader b) (b.drop 20) =
      wire (getHeader b) (List.replicate ((getHeader b).hlen.toNat - 20) 0 ++ b.drop 20) :=
    createPacketBuf_layout h20.ge (h20.le.trans hp)
      (by rw [List.length_drop, hb, h20]; rfl)
  rw [hlay, h20, wire, headerBytes_getHeader (hb.symm ▸ hp)]
  exact List.take_append_drop 20 b

/-- **The codec.**  A packet that `create_packet_buf` lays out is read back as it was given, and
    a buffer that has the length it says, with a header of 20 bytes, is laid out again. -/
theorem codec :
    (∀ (h : TjuHeader) (data : List Byte), 20 ≤ h.hlen.toNat → h.hlen.toNat ≤ h.plen.toNat →
      data.length = h.plen.toNat - h.hlen.toNat →
        (headerPacket h data).length = h.plen.toNat ∧ getHeader (headerPacket h data) = h ∧
          (∀ i, 20 ≤ i → i < h.hlen.toNat → (headerPacket h data)[i]? = some 0) ∧
          (headerPacket h data).drop h.hlen.toNat = data) ∧
      ∀ b : Buf, b.length = (getPlen b).toNat → getHlen b = 20 → 20 ≤ (getPlen b).toNat →
        headerPacket (getHeader b) (b.drop 20) = b :=
  ⟨fun _ _ h20 hle hd => headerPacket_read h20 hle hd,
    fun _ hb hh hp => headerPacket_getHeader hb hh hp⟩

/-- A packet with a header of 22 bytes and three bytes of data, and a buffer that is laid out
    again. -/
theorem codec_three :
    (getHeader (headerPacket ⟨1, 2, 3, 4, 22, 25, 4, 5, 6⟩ [7, 8, 9]) = ⟨1, 2, 3, 4, 22, 25, 4, 5, 6⟩ ∧
      (headerPacket ⟨1, 2, 3, 4, 22, 25, 4, 5, 6⟩ [7, 8, 9]).drop 22 = [7, 8, 9]) ∧
    headerPacket (getHeader [0, 1, 0, 2, 0, 0, 0, 3, 0, 0, 0, 4, 0, 20, 0, 22, 4, 0, 5, 6, 7, 8]) [7, 8] =
      [0, 1, 0, 2, 0, 0, 0, 3, 0, 0, 0, 4, 0, 20, 0, 22, 4, 0, 5, 6, 7, 8] := by
  have hread := codec.1 ⟨1, 2, 3, 4, 22, 25, 4, 5, 6⟩ [7, 8, 9] (by decide) (by decide) (by decide)
  exact ⟨⟨hread.2.1, hread.2.2.2⟩, codec.2 _ (by decide) (by decide) (by decide)⟩

end Tju
