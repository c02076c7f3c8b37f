/-
  Packets (src/tju_packet.c): a header of 20 bytes, with every field in
  network byte order, and the data behind it.

  `createPacketBuf` lays a packet out and the `get…` functions read its
  fields.  Every packet the program sends has the header length 20, and its
  buffer is the header followed by the data (`createPacketBuf_eq`); the fields
  are then read back as they were given (`getSrc_wire` to `getExt_wire`).
-/
import TjuTcp.Global

namespace Tju

open Lib

/-- A packet as it travels. -/
abbrev Buf := List Byte

/-! ## Reading the header -/

/-- `get_src`. -/
def getSrc (msg : Buf) : BitVec 16 := rd16 msg 0

/-- `get_dst`. -/
def getDst (msg : Buf) : BitVec 16 := rd16 msg 2

/-- `get_seq`. -/
def getSeq (msg : Buf) : BitVec 32 := rd32 msg 4

/-- `get_ack`. -/
def getAck (msg : Buf) : BitVec 32 := rd32 msg 8

/-- `get_hlen`. -/
def getHlen (msg : Buf) : BitVec 16 := rd16 msg 12

/-- `get_plen`. -/
def getPlen (msg : Buf) : BitVec 16 := rd16 msg 14

/-- `get_flags`. -/
def getFlags (msg : Buf) : Byte := rd8 msg 16

/-- `get_advertised_window`. -/
def getAdvertisedWindow (msg : Buf) : BitVec 16 := rd16 msg 17

/-- `get_ext`. -/
def getExt (msg : Buf) : Byte := rd8 msg 19

/-! ## Writing a packet -/

/-- `tju_header_t`. -/
structure TjuHeader where
  sourcePort : BitVec 16
  destinationPort : BitVec 16
  seqNum : BitVec 32
  ackNum : BitVec 32
  hlen : BitVec 16
  plen : BitVec 16
  flags : Byte
  advertisedWindow : BitVec 16
  ext : Byte

/-- `tju_packet_t`. -/
structure TjuPacket where
  header : TjuHeader
  data : List Byte

/-- `create_packet`. -/
def createPacket (src dst : BitVec 16) (seq ack : BitVec 32) (hlen plen : BitVec 16) (flags : Byte)
    (advWindow : BitVec 16) (ext : Byte) (data : List Byte) (len : ℕ) : TjuPacket where
  header := ⟨src, dst, seq, ack, hlen, plen, flags, advWindow, ext⟩
  data := data.take len

/-- The 20 bytes that `header_in_char` writes. -/
def headerBytes (h : TjuHeader) : Buf :=
  be16 h.sourcePort ++ be16 h.destinationPort ++ be32 h.seqNum ++ be32 h.ackNum ++ be16 h.hlen ++
    be16 h.plen ++ [h.flags] ++ be16 h.advertisedWindow ++ [h.ext]

/-- `header_in_char`: the header in a zeroed buffer of `plen` bytes. -/
def headerInChar (h : TjuHeader) : Buf :=
  headerBytes h ++ List.replicate (h.plen.toNat - 20) 0

/-- `packet_to_buf`. -/
def packetToBuf (p : TjuPacket) : Buf :=
  let msg := headerInChar p.header
  if p.header.plen > p.header.hlen then
    msg.take p.header.hlen.toNat ++ p.data.take (p.header.plen.toNat - p.header.hlen.toNat) ++
      msg.drop p.header.plen.toNat
  else msg

/-- `create_packet_buf`. -/
def createPacketBuf (src dst : BitVec 16) (seq ack : BitVec 32) (hlen plen : BitVec 16)
    (flags : Byte) (advWindow : BitVec 16) (ext : Byte) (data : List Byte) (len : ℕ) : Buf :=
  packetToBuf (createPacket src dst seq ack hlen plen flags advWindow ext data len)

/-! ## The fields are read back -/

/-- A header and the data behind it. -/
def wire (h : TjuHeader) (data : List Byte) : Buf := headerBytes h ++ data

section
variable (h : TjuHeader) (data : List Byte)

@[simp] theorem wire_length : (wire h data).length = 20 + data.length := by
  simp [wire, headerBytes]; omega

theorem wire_drop : (wire h data).drop 20 = data := rfl

@[simp] theorem getSrc_wire : getSrc (wire h data) = h.sourcePort := by
  simp only [wire, headerBytes, List.append_assoc, getSrc]
  exact rd16_be16 [] _ _

@[simp] theorem getDst_wire : getDst (wire h data) = h.destinationPort := by
  simp only [wire, headerBytes, List.append_assoc, getDst]
  exact rd16_be16 (be16 _) _ _

@[simp] theorem getSeq_wire : getSeq (wire h data) = h.seqNum := by
  simp only [wire, headerBytes, getSeq, List.append_assoc]
  rw [← List.append_assoc (be16 _)]
  exact rd32_be32 (be16 _ ++ be16 _) _ _

@[simp] theorem getAck_wire : getAck (wire h data) = h.ackNum := by
  have := rd32_be32 (be16 h.sourcePort ++ be16 h.destinationPort ++ be32 h.seqNum)
    (be16 h.hlen ++ be16 h.plen ++ [h.flags] ++ be16 h.advertisedWindow ++ [h.ext] ++ data) h.ackNum
  simpa [wire, headerBytes, getAck] using this

@[simp] theorem getHlen_wire : getHlen (wire h data) = h.hlen := by
  have := rd16_be16
    (be16 h.sourcePort ++ be16 h.destinationPort ++ be32 h.seqNum ++ be32 h.ackNum)
    (be16 h.plen ++ [h.flags] ++ be16 h.advertisedWindow ++ [h.ext] ++ data) h.hlen
  simpa [wire, headerBytes, getHlen] using this

@[simp] theorem getPlen_wire : getPlen (wire h data) = h.plen := by
  have := rd16_be16
    (be16 h.sourcePort ++ be16 h.destinationPort ++ be32 h.seqNum ++ be32 h.ackNum ++ be16 h.hlen)
    ([h.flags] ++ be16 h.advertisedWindow ++ [h.ext] ++ data) h.plen
  simpa [wire, headerBytes, getPlen] using this

@[simp] theorem getFlags_wire : getFlags (wire h data) = h.flags := rfl

@[simp] theorem getAdvertisedWindow_wire :
    getAdvertisedWindow (wire h data) = h.advertisedWindow := by
  have := rd16_be16
    (be16 h.sourcePort ++ be16 h.destinationPort ++ be32 h.seqNum ++ be32 h.ackNum ++ be16 h.hlen ++
      be16 h.plen ++ [h.flags]) ([h.ext] ++ data) h.advertisedWindow
  simpa [wire, headerBytes, getAdvertisedWindow] using this

@[simp] theorem getExt_wire : getExt (wire h data) = h.ext := rfl

end

/-- **The layout of a packet**: its header, zeros up to its header length, and its data. -/
theorem createPacketBuf_layout {h : TjuHeader} {data : List Byte} (h20 : 20 ≤ h.hlen.toNat)
    (hle : h.hlen.toNat ≤ h.plen.toNat) (hd : data.length = h.plen.toNat - h.hlen.toNat) :
    createPacketBuf h.sourcePort h.destinationPort h.seqNum h.ackNum h.hlen h.plen h.flags
        h.advertisedWindow h.ext data data.length =
      wire h (List.replicate (h.hlen.toNat - 20) 0 ++ data) := by
  have hlen : (headerBytes h).length = 20 := by simp [headerBytes]
  unfold createPacketBuf packetToBuf createPacket headerInChar wire
  simp only [List.take_length]
  split_ifs with hlt
  · -- the data overwrites the zeros behind the header length
    rw [← hd, List.take_length, List.take_append, List.take_of_length_le (hlen.le.trans h20), hlen,
      List.take_replicate, min_eq_left (by omega), List.drop_of_length_le (by simp [hlen]; omega),
      List.append_nil, List.append_assoc]
  · have heq : h.hlen.toNat = h.plen.toNat := le_antisymm hle (not_lt.1 hlt)
    have hnil : data = [] := List.length_eq_zero_iff.1 (by omega)
    rw [hnil, List.append_nil, heq]

/-- **A packet with header length 20** is its header followed by its data. -/
theorem createPacketBuf_eq {src dst : BitVec 16} {seq ack : BitVec 32} {plen : BitVec 16}
    {flags : Byte} {adv : BitVec 16} {ext : Byte} {data : List Byte}
    (hp : plen.toNat = 20 + data.length) :
    createPacketBuf src dst seq ack 20 plen flags adv ext data data.length =
      wire ⟨src, dst, seq, ack, 20, plen, flags, adv, ext⟩ data := by
  have h20 : (20 : BitVec 16).toNat = 20 := rfl
  exact createPacketBuf_layout (h := ⟨src, dst, seq, ack, 20, plen, flags, adv, ext⟩) h20.ge
    (by dsimp only; omega) (by dsimp only; omega)

/-- Whatever its length field says, a packet with header length 20 starts with its header. -/
theorem createPacketBuf_wire (src dst : BitVec 16) (seq ack : BitVec 32) (plen : BitVec 16)
    (flags : Byte) (adv : BitVec 16) (ext : Byte) (data : List Byte) (len : ℕ) :
    ∃ rest, createPacketBuf src dst seq ack 20 plen flags adv ext data len =
      wire ⟨src, dst, seq, ack, 20, plen, flags, adv, ext⟩ rest := by
  unfold createPacketBuf packetToBuf createPacket headerInChar wire
  dsimp only
  split_ifs
  · have h20 : ((20 : BitVec 16)).toNat = 20 := rfl
    rw [h20, List.take_append_of_le_length (by simp [headerBytes]),
      List.take_of_length_le (by simp [headerBytes]), List.append_assoc]
    exact ⟨_, rfl⟩
  · exact ⟨_, rfl⟩

/-- A packet without data is its header. -/
@[simp] theorem createPacketBuf_nil (src dst : BitVec 16) (seq ack : BitVec 32) (flags : Byte)
    (adv : BitVec 16) (ext : Byte) :
    createPacketBuf src dst seq ack 20 20 flags adv ext [] 0 =
      wire ⟨src, dst, seq, ack, 20, 20, flags, adv, ext⟩ [] :=
  createPacketBuf_eq (show (20 : BitVec 16).toNat = 20 + ([] : List Byte).length from rfl)

end Tju
