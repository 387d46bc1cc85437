import NulConnect.TunStack.Socket

/-! The packets of the TUN device: what the stack reads of them itself, and what smoltcp makes
of them. -/
namespace NulConnect.TunStack
open Net

abbrev Packet := List UInt8

def ipv4ProtocolAndPort (packet : Packet) : Option (UInt8 × Ipv4Addr × UInt16) :=
  let byte (i : ℕ) : UInt8 := packet.getD i 0
  let headerLen := (byte 0 &&& 0x0f).toNat * 4
  if packet.length < 20 ∨ byte 0 >>> 4 ≠ 4 then none
  else if headerLen < 20 ∨ packet.length < headerLen then none
  else
    let destination := Ipv4Addr.ofOctets (byte 16).toBitVec (byte 17).toBitVec
      (byte 18).toBitVec (byte 19).toBitVec
    if ¬ (byte 9 = 6 ∨ byte 9 = 17) ∨ packet.length < headerLen + 4 then
      some (byte 9, destination, 0)
    else
      some (byte 9, destination,
        (byte (headerLen + 2)).toUInt16 <<< 8 ||| (byte (headerLen + 3)).toUInt16)

inductive TcpControl where
  | none
  | syn
  | fin
  | rst
deriving DecidableEq, Repr

structure TcpSegment where
  source : Endpoint
  target : Endpoint
  control : TcpControl
  ack : Bool
deriving DecidableEq, Repr

/-- The opening segment of a connection. -/
def TcpSegment.isSyn (g : TcpSegment) : Bool := g.control = .syn && !g.ack

/-- smoltcp's reading of a packet as a TCP segment, `none` where there is none or where it
is dropped unread. -/
structure PacketReader where
  segment : Packet → Option TcpSegment
  /-- Both read the destination at the same place. -/
  target : ∀ p g, segment p = some g →
    ipv4ProtocolAndPort p = some (6, g.target.addr, g.target.port)

/-- Reads the segments of packets that are well formed. -/
def PacketReader.plain : PacketReader where
  segment p :=
    let byte (i : ℕ) : UInt8 := p.getD i 0
    let headerLen := (byte 0 &&& 0x0f).toNat * 4
    let source : Endpoint := ⟨.ofOctets (byte 12).toBitVec (byte 13).toBitVec (byte 14).toBitVec
      (byte 15).toBitVec, (byte headerLen).toUInt16 <<< 8 ||| (byte (headerLen + 1)).toUInt16⟩
    let flags := byte (headerLen + 13)
    match ipv4ProtocolAndPort p with
    | some (6, addr, port) => some
        { source := source
          target := ⟨addr, port⟩
          control := if flags &&& 4 ≠ 0 then .rst else if flags &&& 2 ≠ 0 then .syn
            else if flags &&& 1 ≠ 0 then .fin else .none
          ack := flags &&& 16 ≠ 0 }
    | _ => none
  target p g h := by
    dsimp only at h
    split at h
    · rename_i hip
      obtain rfl := Option.some.inj h
      exact hip
    · cases h

/-- A SYN from 10.8.0.2 port 50001 to 198.19.0.2 port 22. -/
def synPacket : Packet :=
  [69, 0, 0, 40, 0, 0, 64, 0, 64, 6, 106, 177, 10, 8, 0, 2, 198, 19, 0, 2, 195, 81, 0, 22,
    0, 0, 0, 1, 0, 0, 0, 0, 80, 2, 255, 255, 28, 91, 0, 0]

example : PacketReader.plain.segment synPacket = some
    { source := ⟨.ofOctets 10 8 0 2, 50001⟩
      target := ⟨.ofOctets 198 19 0 2, 22⟩
      control := .syn
      ack := false } := by decide +kernel

/-- What a segment can do to the connection it belongs to: each but a RST acknowledges. -/
def TcpSegment.allows (g : TcpSegment) : PollEvent → Bool
  | .rst => g.control = .rst
  | .fin => g.control = .fin && g.ack
  | .handshake | .data _ | .ack _ | .finAck => g.control ≠ .rst && g.ack
  | _ => false

/-- A listening socket takes what does not acknowledge anything, a connection what comes
from its far end. -/
def Socket.accepts (k : Socket) (g : TcpSegment) : Bool :=
  match k.state, k.tuple with
  | .closed, _ => false
  | .listen, _ => !g.ack && k.listenEndpoint = g.target
  | _, some source => k.listenEndpoint = g.target && source = g.source
  | _, none => false

namespace PollEvent

/-- What a socket does in a poll by itself. -/
def egress : PollEvent → Bool
  | .expire | .transmitSynAck | .transmit _ | .transmitFin | .transmitRst => true
  | _ => false

end PollEvent

end NulConnect.TunStack
