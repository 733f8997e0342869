import HostServices.AddressSpace
import HostServices.Text.Hex

/-!
# Listings of an address space

The areas in address order, with those that continue each other in one line, and bytes in hex.
-/

namespace HostServices.AddressSpace

/-- Areas in address order, joined where one continues another. -/
def joined : List Area → List Area
  | [] => []
  | r :: rest =>
    match joined rest with
    | [] => [r]
    | s :: more =>
      if r.continuedBy s then { r with stop := s.stop } :: more else r :: s :: more

/-- All areas in address order. -/
def ordered (s : AddressSpace) : List Area :=
  joined (s.areas.mergeSort fun a b => a.start ≤ b.start)

/-- The line of an area. -/
def line (r : Area) : String :=
  let sharing := if r.backing.isShared then "s" else "p"
  s!"{Hex.ofNat r.start}-{Hex.ofNat r.stop} {r.access.letters}{sharing}\n"

/-- The lines of the areas with pages in a range. -/
def mappings (s : AddressSpace) (start bytes : UInt64) : String :=
  if bytes = 0 then "cannot query mappings: Invalid parameter value: size\n"
  else
    let lo := pageOf start.toNat
    let hi := lo + roundUp (start.toNat % pageSize + bytes.toNat)
    String.join ((s.ordered.filter (·.overlaps lo hi)).map line)

/-- The bytes at an address in hex, with marks for those that cannot be read. -/
def peek (s : AddressSpace) (addr : UInt64) (count : Nat) : String :=
  String.join ((List.range count).map fun i =>
    ((s.byte? (addr.toNat + i)).map fun b => Hex.bytes [b]).getD "??")

/-- Bytes of the file in hex, as far as it reaches. -/
def fileHex (s : AddressSpace) (offset count : Nat) : String :=
  s.file.elim "" fun f =>
    Hex.bytes ((List.range (Nat.min count (f.length - offset))).map fun i => f.byte (offset + i))

end HostServices.AddressSpace
