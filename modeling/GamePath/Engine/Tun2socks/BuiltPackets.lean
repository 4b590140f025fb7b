import GamePath.Engine.Tun2socks.Packet

/-!
# The packets the stack builds are read back (`tun2socks/packet.rs`)

A built packet carries its length in 16 bits, so it is read back when it fits them
(`parseIpv4_ipv4Packet`). A datagram has 28 bytes of headers: exactly the payloads of at most 65,507
bytes make a well formed one (`goodDatagram_iff`). An answer of a resolver over TCP may be longer.
-/

namespace GamePath.Engine.Tun2socks

open Lib List OnesComplement
open Socks (SocketAddr)

variable {data payload : Bytes} {acc i : Nat} {source destination : Octets} {protocol : UInt8}

/-! ## Checksums -/

theorem checksum_toNat (h : acc + wordSum data < 2 ^ 32) :
    (checksum data acc).toNat = 65535 - fold 16 (acc + wordSum data) := by
  have hle : fold 16 (acc + wordSum data) ≤ 65535 := fold_le (by decide) h
  rw [checksum, UInt16.toNat_not, UInt16.toNat_ofNat', Nat.mod_eq_of_lt (by omega)]
  rfl

theorem checksum_setU16 (heven : i % 2 = 0) (hin : i + 2 ≤ data.length)
    (hzero : u16OfBe (data.getD i 0) (data.getD (i + 1) 0) = 0) (hpos : 0 < acc + wordSum data)
    (hlt : acc + wordSum data + 65535 < 2 ^ 32) {v : UInt16}
    (hv : v.toNat % 65535 = (checksum data acc).toNat % 65535) :
    checksum (setU16 data i v) acc = 0 := by
  have hsum := wordSum_setU16 heven hin v
  rw [hzero] at hsum
  change wordSum (setU16 data i v) + 0 = _ at hsum
  have hvlt : v.toNat < 65536 := v.toNat_lt
  have hmod := fold_mod 16 (acc + wordSum data)
  have hle := @OnesComplement.fold_le 16 (acc + wordSum data) (by decide) (by omega)
  rw [checksum_toNat (by omega)] at hv
  rw [← UInt16.toNat_inj, checksum_toNat (by omega),
    (fold_eq_ones_iff (by decide) (by omega)).2 ⟨by omega, by omega⟩]
  rfl

/-! ## Reading back -/

/-- The header of `ipv4_packet`, with a checksum. -/
def headerOf (source destination : Octets) (protocol : UInt8) (length : Nat)
    (sum : UInt16) : Bytes :=
  let total := UInt16.ofNat (20 + length)
  [0x45, 0, hiByte total, loByte total, 0, 0, 0x40, 0, ttl, protocol, hiByte sum, loByte sum,
    source.1, source.2.1, source.2.2.1, source.2.2.2,
    destination.1, destination.2.1, destination.2.2.1, destination.2.2.2]

theorem ipv4Packet_eq : ipv4Packet source destination protocol payload =
    headerOf source destination protocol payload.length
      (checksum (headerOf source destination protocol payload.length 0) 0) ++ payload := rfl

theorem checksum_header : checksum ((ipv4Packet source destination protocol payload).take 20) 0 =
    0 := by
  generalize hheader : headerOf source destination protocol payload.length 0 = header
  have hlength : header.length = 20 := hheader ▸ rfl
  have hle := wordSum_le header
  have hpos : 0 < wordSum header := by
    rw [← hheader, headerOf]
    exact Nat.add_pos_left (by decide) _
  have hzero : u16OfBe (header.getD 10 0) (header.getD (10 + 1) 0) = 0 := by
    rw [← hheader]
    exact u16OfBe_bytes 0
  have hset : (ipv4Packet source destination protocol payload).take 20 = setU16 header 10
      (checksum header 0) := by
    rw [ipv4Packet_eq, ← hheader]
    rfl
  rw [hset]
  exact checksum_setU16 rfl (by omega) hzero (by omega) (by omega) rfl

theorem parseIpv4_ipv4Packet (h : payload.length ≤ 65515) :
    parseIpv4 (ipv4Packet source destination protocol payload) =
      some ⟨protocol, source, destination, false, payload⟩ := by
  have htotal : (UInt16.ofNat (20 + payload.length)).toNat = 20 + payload.length := by
    rw [UInt16.toNat_ofNat']
    omega
  rw [ipv4Packet_eq]
  generalize checksum (headerOf source destination protocol payload.length 0) 0 = sum
  have hlength : (headerOf source destination protocol payload.length sum ++ payload).length =
      20 + payload.length := by
    rw [length_append]
    rfl
  have htake : ((headerOf source destination protocol payload.length sum ++ payload).take
      (20 + payload.length)).drop 20 =
      payload := by
    rw [take_of_length_le hlength.le]
    rfl
  have hheader : ((0x45 : UInt8) &&& 0x0f).toNat * 4 = 20 := rfl
  rw [headerOf] at hlength htake ⊢
  simp only [cons_append, nil_append] at hlength htake ⊢
  rw [parseIpv4]
  simp only [u16OfBe_bytes, htotal, hlength, hheader, htake]
  rw [if_neg (by decide), if_neg (by omega)]
  rfl

theorem parseIpv4_length {packet : Bytes} {ip : Ipv4} (h : parseIpv4 packet = some ip) :
    ip.payload.length ≤ 65515 := by
  rw [parseIpv4.eq_def] at h
  split at h
  · dsimp only at h
    split at h
    · cases h
    split at h
    · cases h
    rename_i b2 b3 _ _ _ _ _ _ _ _ _ _ _ _ _ _ _ _ _ _ hfits
    cases h
    have htotal := (u16OfBe b2 b3).toNat_lt
    rw [length_drop, length_take]
    omega
  · cases h

/-! ## Datagrams -/

/-- The segment of `build_udp`, with a checksum. -/
def udpSegment (source destination : SocketAddr) (payload : Bytes) (sum : UInt16) : Bytes :=
  let length := UInt16.ofNat (8 + payload.length)
  [hiByte source.port, loByte source.port, hiByte destination.port, loByte destination.port,
    hiByte length, loByte length, hiByte sum, loByte sum] ++ payload

/-- The checksum of `build_udp`. -/
def udpSum (source destination : SocketAddr) (payload : Bytes) : UInt16 :=
  let sum := checksum (udpSegment source destination payload 0)
    (pseudoHeader source.ip destination.ip protocolUdp (8 + payload.length))
  if sum = 0 then 0xffff else sum

theorem parseUdp_length {segment : Bytes} {udp : Udp} (h : parseUdp segment = some udp) :
    udp.payload.length + 8 ≤ segment.length := by
  rw [parseUdp.eq_def] at h
  split at h
  · dsimp only at h
    split at h
    · cases h
    cases h
    rw [length_drop, length_take]
    omega
  · cases h

/-- The packet is one datagram with the given ends and payload, and its two checksums verify. -/
structure GoodDatagram (source destination : SocketAddr) (payload packet : Bytes) : Prop where
  header : checksum (packet.take 20) 0 = 0
  datagram : ∃ segment,
    parseIpv4 packet = some ⟨protocolUdp, source.ip, destination.ip, false, segment⟩ ∧
      parseUdp segment = some ⟨source.port, destination.port, payload⟩ ∧
      checksum segment (pseudoHeader source.ip destination.ip protocolUdp segment.length) = 0 ∧
      u16OfBe (segment.getD 6 0) (segment.getD 7 0) ≠ 0

section Datagrams

variable {source destination : SocketAddr} {packet : Bytes} {sum : UInt16}

theorem buildUdp_eq : buildUdp source destination payload =
    ipv4Packet source.ip destination.ip protocolUdp
      (udpSegment source destination payload (udpSum source destination payload)) := rfl

theorem length_udpSegment : (udpSegment source destination payload sum).length =
    8 + payload.length := by
  rw [udpSegment, length_append]
  rfl

theorem parseUdp_udpSegment (h : payload.length ≤ 65507) :
    parseUdp (udpSegment source destination payload sum) = some ⟨source.port, destination.port,
      payload⟩ := by
  have hfits : (UInt16.ofNat (8 + payload.length)).toNat = 8 + payload.length := by
    rw [UInt16.toNat_ofNat']
    omega
  have hlength := @length_udpSegment payload source destination sum
  have htake : ((udpSegment source destination payload sum).take (8 + payload.length)).drop 8 =
      payload := by
    rw [take_of_length_le hlength.le]
    rfl
  simp only [udpSegment, cons_append, nil_append] at hlength htake ⊢
  rw [parseUdp]
  simp only [u16OfBe_bytes, hfits, hlength, htake]
  rw [if_neg (by omega)]

theorem checksum_udpSegment (h : payload.length ≤ 65507) :
    checksum (udpSegment source destination payload (udpSum source destination payload))
        (pseudoHeader source.ip destination.ip protocolUdp (8 + payload.length)) = 0 ∧
      udpSum source destination payload ≠ 0 := by
  have hacc : ∀ acc, pseudoHeader source.ip destination.ip protocolUdp (8 + payload.length) = acc →
      0 < acc ∧ acc ≤ 4 * 65535 + 17 + 65515 := by
    rintro acc rfl
    have hwords (ip : Octets) : wordSum (octets ip) ≤ 65535 * ((4 + 1) / 2) := wordSum_le
      (octets ip)
    have hsource := hwords source.ip
    have hdestination := hwords destination.ip
    rw [pseudoHeader, show protocolUdp.toNat = 17 from rfl]
    omega
  rw [udpSum]
  generalize hp : pseudoHeader source.ip destination.ip protocolUdp (8 + payload.length) = acc
  obtain ⟨hpos, hle⟩ := hacc acc hp
  have hsum := wordSum_le (udpSegment source destination payload 0)
  rw [length_udpSegment] at hsum
  have hzero : u16OfBe ((udpSegment source destination payload 0).getD 6 0)
      ((udpSegment source destination payload 0).getD (6 + 1) 0) = 0 := u16OfBe_bytes 0
  have hset {v : UInt16} (hv : v.toNat % 65535 =
      (checksum (udpSegment source destination payload 0) acc).toNat % 65535) :
      checksum (udpSegment source destination payload v) acc = 0 :=
    checksum_setU16 rfl (by rw [length_udpSegment]; omega) hzero (by omega) (by omega) hv
  split
  · rename_i hnone
    exact ⟨hset (by rw [hnone]; rfl), by decide⟩
  · rename_i hsome
    exact ⟨hset rfl, hsome⟩

theorem GoodDatagram.length_le (h : GoodDatagram source destination payload packet) :
    payload.length ≤ 65507 := by
  obtain ⟨segment, hip, hudp, -⟩ := h.datagram
  have hsegment := parseIpv4_length hip
  have hpayload := parseUdp_length hudp
  dsimp only at hsegment hpayload
  omega

/-- A datagram is well formed exactly when its payload fits. -/
theorem goodDatagram_iff : GoodDatagram source destination payload
    (buildUdp source destination payload) ↔
    payload.length ≤ 65507 := by
  refine ⟨GoodDatagram.length_le, fun h => ?_⟩
  obtain ⟨hverifies, hnonzero⟩ := @checksum_udpSegment payload source destination h
  rw [buildUdp_eq]
  refine ⟨checksum_header, _, parseIpv4_ipv4Packet ?_, parseUdp_udpSegment h, ?_, ?_⟩
  · rw [length_udpSegment]
    omega
  · rw [length_udpSegment]
    exact hverifies
  · exact fun h => hnonzero ((u16OfBe_bytes _).symm.trans h)

/-- An answer of a resolver over TCP, one byte longer than a datagram holds. -/
theorem long_answer_malformed : ¬ GoodDatagram ⟨(10, 0, 0, 1), 53⟩ ⟨(10, 207, 0, 2), 50000⟩
    (List.replicate 65508 0)
    (buildUdp ⟨(10, 0, 0, 1), 53⟩ ⟨(10, 207, 0, 2), 50000⟩ (List.replicate 65508 0)) := by
  intro h
  have hle := h.length_le
  rw [List.length_replicate] at hle
  omega

end Datagrams

end GamePath.Engine.Tun2socks
