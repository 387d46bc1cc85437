import Mathlib.Data.List.GetD
import NulConnect.Net.Ipv4

/-! IPv4 packets, and the fragments of one. -/
namespace NulConnect.Net

/-- A number of two bytes, the high one first. -/
def readWord (bytes : List UInt8) (i : ℕ) : UInt16 :=
  (bytes.getD i 0).toUInt16 <<< 8 ||| (bytes.getD (i + 1) 0).toUInt16

/-- Its low byte can be told from it. -/
theorem toUInt8_word (hi lo : UInt8) : (hi.toUInt16 <<< 8 ||| lo.toUInt16).toUInt8 = lo := by
  apply UInt8.toBitVec_inj.mp
  ext i hi
  have hlow : ¬ 8 ≤ i := by omega
  simp

def readAddr (bytes : List UInt8) (i : ℕ) : Ipv4Addr :=
  .ofOctets (bytes.getD i 0).toBitVec (bytes.getD (i + 1) 0).toBitVec
    (bytes.getD (i + 2) 0).toBitVec (bytes.getD (i + 3) 0).toBitVec

/-- The sum that the checksum of a header is made of. -/
def wordSum : List UInt8 → ℕ
  | hi :: lo :: rest => hi.toNat * 256 + lo.toNat + wordSum rest
  | _ => 0

/-- A packet with a header that says what the packet is. -/
structure Ipv4Packet where
  header : List UInt8
  payload : List UInt8
  version : header.getD 0 0 >>> 4 = 4 := by decide
  headerLength : header.length = (header.getD 0 0 &&& 0xf).toNat * 4 := by decide
  minimal : 20 ≤ header.length := by decide
  totalLength : (readWord header 2).toNat = header.length + payload.length := by decide
  checksum : wordSum header % 65535 = 0 := by decide

namespace Ipv4Packet

def bytes (p : Ipv4Packet) : List UInt8 := p.header ++ p.payload

def identification (p : Ipv4Packet) : UInt16 := readWord p.header 4

def dontFragment (p : Ipv4Packet) : Bool := readWord p.header 6 &&& 0x4000 ≠ 0

def moreFragments (p : Ipv4Packet) : Bool := readWord p.header 6 &&& 0x2000 ≠ 0

/-- Where the payload belongs, in units of eight bytes. -/
def fragmentOffset (p : Ipv4Packet) : ℕ := (readWord p.header 6 &&& 0x1fff).toNat

def protocol (p : Ipv4Packet) : UInt8 := p.header.getD 9 0

def source (p : Ipv4Packet) : Ipv4Addr := readAddr p.header 12

def destination (p : Ipv4Packet) : Ipv4Addr := readAddr p.header 16

/-- The second word of a TCP or UDP header. -/
def destinationPort (p : Ipv4Packet) : UInt16 := readWord p.payload 2

/-- A whole datagram of TCP or UDP. -/
structure Datagram (d : Ipv4Packet) : Prop where
  transport : d.protocol = 6 ∧ 20 ≤ d.payload.length ∨ d.protocol = 17 ∧ 8 ≤ d.payload.length
  whole : d.fragmentOffset = 0 ∧ d.moreFragments = false

/-- The packets are put together again. -/
structure SameDatagram (f d : Ipv4Packet) : Prop where
  identification : f.identification = d.identification
  protocol : f.protocol = d.protocol
  source : f.source = d.source
  destination : f.destination = d.destination

/-- Packets that carry bytes of a datagram from an offset on. All but the last carry whole units
and say that more follows. -/
inductive Pieces (d : Ipv4Packet) : ℕ → List UInt8 → List Ipv4Packet → Prop where
  | last {f : Ipv4Packet} (same : f.SameDatagram d) (hlast : f.moreFragments = false) :
      Pieces d f.fragmentOffset f.payload [f]
  | more {f : Ipv4Packet} {units : ℕ} {rest : List UInt8} {fs : List Ipv4Packet}
      (same : f.SameDatagram d) (hmore : f.moreFragments) (hpos : 0 < units)
      (hunits : f.payload.length = 8 * units) (hrest : rest ≠ [])
      (tail : Pieces d (f.fragmentOffset + units) rest fs) :
      Pieces d f.fragmentOffset (f.payload ++ rest) (f :: fs)

/-- The fragments of a datagram, in the order of their offsets. -/
structure Fragmentation (d : Ipv4Packet) (fs : List Ipv4Packet) : Prop where
  pieces : Pieces d 0 d.payload fs
  allowed : d.dontFragment → fs.length = 1

variable {d f : Ipv4Packet} {offset : ℕ} {bytes : List UInt8} {fs : List Ipv4Packet}

theorem Pieces.sameDatagram (h : Pieces d offset bytes fs) : ∀ f ∈ fs, f.SameDatagram d := by
  induction h with
  | last same _ =>
    intro g hg
    rwa [List.mem_singleton.mp hg]
  | more same _ _ _ _ _ ih =>
    intro g hg
    cases List.mem_cons.mp hg with
    | inl hfirst => rwa [hfirst]
    | inr htail => exact ih g htail

/-- The piece at the offset begins the bytes, with all of them or with a unit at least. -/
theorem Pieces.first (h : Pieces d offset bytes fs) : ∀ f ∈ fs, offset ≤ f.fragmentOffset ∧
    (f.fragmentOffset = offset →
      f.payload <+: bytes ∧ (f.payload = bytes ∨ 8 ≤ f.payload.length)) := by
  induction h with
  | last _ _ =>
    intro g hg
    rw [List.mem_singleton.mp hg]
    exact ⟨le_rfl, fun _ => ⟨List.prefix_rfl, Or.inl rfl⟩⟩
  | more _ _ hpos hunits _ _ ih =>
    intro g hg
    cases List.mem_cons.mp hg with
    | inl hfirst =>
      rw [hfirst]
      refine ⟨le_rfl, fun _ => ⟨List.prefix_append _ _, Or.inr ?_⟩⟩
      omega
    | inr htail =>
      have hle := (ih g htail).1
      constructor
      · omega
      · intro heq
        omega

/-- The transport header of a datagram has its ports in the first fragment. -/
theorem Fragmentation.first (h : Fragmentation d fs) (hd : d.Datagram) (hf : f ∈ fs)
    (hfirst : f.fragmentOffset = 0) :
    4 ≤ f.payload.length ∧ f.destinationPort = d.destinationPort := by
  have hlen : 8 ≤ d.payload.length := by
    obtain ⟨-, h⟩ | ⟨-, h⟩ := hd.transport
    all_goals omega
  obtain ⟨⟨rest, hrest⟩, hwhole⟩ := (h.pieces.first f hf).2 hfirst
  have hfour : 4 ≤ f.payload.length := by
    cases hwhole with
    | inl hall =>
      rw [hall]
      omega
    | inr hunit => omega
  refine ⟨hfour, ?_⟩
  unfold destinationPort readWord
  rw [← hrest, List.getD_append _ _ _ _ (by omega), List.getD_append _ _ _ _ (by omega)]

/-- The packet with other bytes of the same number behind its header. -/
def withPayload (f : Ipv4Packet) (payload : List UInt8) (h : payload.length = f.payload.length) :
    Ipv4Packet :=
  { f with
    payload := payload
    totalLength := by rw [f.totalLength, h] }

/-- Of two packets with one header the bytes decide which port they seem to have. -/
theorem exists_other_port (h : 4 ≤ f.payload.length) : ∃ g : Ipv4Packet, g.header = f.header ∧
    g.payload.length = f.payload.length ∧ g.destinationPort ≠ f.destinationPort := by
  let low := f.payload.getD 3 0
  refine ⟨f.withPayload (f.payload.set 3 (low + 1)) List.length_set, rfl, List.length_set, ?_⟩
  intro heq
  have hlow := congrArg UInt16.toUInt8 heq
  unfold destinationPort readWord at hlow
  rw [toUInt8_word, toUInt8_word] at hlow
  have hset : (f.payload.set 3 (low + 1)).getD 3 0 = low + 1 := by
    rw [List.getD_eq_getElem?_getD, List.getElem?_set_self (by omega)]
    rfl
  have hsame : low + 1 = low := hset.symm.trans hlow
  simp at hsame

end Ipv4Packet

end NulConnect.Net
