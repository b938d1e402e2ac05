import HostServices.Lib.FromStr

/-!
# How an address is written

`Display` of `std::net::IpAddr`: four decimal octets, or hexadecimal groups with `::` for the
first of the longest runs of zeros, or the dotted form behind `::ffff:`.
-/

namespace HostServices.Lib

namespace IpAddr

/-- The four bytes of an address, the high one first. -/
def octets (bits : BitVec 32) : List Nat :=
  (List.range 4).map fun i => bits.toNat / 256 ^ (3 - i) % 256

/-- `segments`: the eight groups of 16 bits. -/
def segments (bits : BitVec 128) : List Nat :=
  (List.range 8).map fun i => bits.toNat / 65536 ^ (7 - i) % 65536

/-- `Display for Ipv4Addr`: the bytes in decimal. -/
def displayV4 (bits : BitVec 32) : String :=
  ".".intercalate ((octets bits).map fun n => toString n)

/-- A run of zeros: where it starts, and how long it is. -/
structure Span where
  start : Nat := 0
  length : Nat := 0

/-- The first of the longest runs of zeros in what is left of the groups. -/
def longestZeros (longest current : Span) : Nat → List Nat → Span
  | _, [] => longest
  | i, group :: groups =>
    if group = 0 then
      let current : Span :=
        { start := if current.length = 0 then i else current.start, length := current.length + 1 }
      longestZeros (if longest.length < current.length then current else longest) current (i + 1)
        groups
    else longestZeros longest {} (i + 1) groups

/-- Groups in hexadecimal, with colons between them. -/
def displayGroups (groups : List Nat) : String :=
  ":".intercalate (groups.map fun n => String.ofList (Nat.toDigits 16 n))

/-- `Display for Ipv6Addr`: the longest run of zero groups is written `::`. -/
def displayV6 (bits : BitVec 128) : String :=
  if bits.toNat / 2 ^ 32 = 0xFFFF then "::ffff:" ++ displayV4 (bits.setWidth 32)
  else
    let groups := segments bits
    let zeros := longestZeros {} {} 0 groups
    if 1 < zeros.length then
      displayGroups (groups.take zeros.start) ++ "::" ++
        displayGroups (groups.drop (zeros.start + zeros.length))
    else displayGroups groups

/-- `Display for IpAddr`. -/
def display : IpAddr → String
  | .v4 bits => displayV4 bits
  | .v6 bits => displayV6 bits

/-- `IpAddr::is_ipv4`. -/
def isIpv4 : IpAddr → Bool
  | .v4 _ => true
  | .v6 _ => false

example : (parseIpAddr "2606:4700::1111").map display = some "2606:4700::1111" := by
  decide +kernel

end IpAddr

end HostServices.Lib
