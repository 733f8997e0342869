import HostServices.Memory

/-!
# Block headers

A tracked block has sixteen bytes in front of the user's bytes and two behind them:

```text
outer                                      inner           inner + size
| size 8 | marker 4 | category 1 | 0 | canary 2 | user bytes | footer 2 |
```

The canary and the footer tell a live block from a freed one, and an intact block from one that
was written over.
-/

namespace HostServices

/-- The bytes in front of the user's. -/
structure BlockHeader where
  size : UInt64
  marker : UInt32
  category : UInt8
  canary : UInt16
  deriving DecidableEq, Repr

namespace BlockHeader

/-- The number of bytes in front of the user's. -/
def headerSize : UInt64 := 16

/-- The number of bytes behind the user's. -/
def footerSize : UInt64 := 2

/-- A canary and a footer that belong together. -/
structure Marks where
  canary : UInt16
  footer : UInt16
  deriving DecidableEq, Repr

/-- The marks of a live block. -/
def live : Marks := ⟨0xe99e, 0xe88e⟩

/-- The marks of a freed block. -/
def dead : Marks := ⟨0xd99d, 0xd88d⟩

/-- The sixteen bytes of a header. -/
def encode (h : BlockHeader) : List UInt8 :=
  Memory.littleEndian 8 h.size.toNat ++ Memory.littleEndian 4 h.marker.toNat ++
    [h.category, 0] ++ Memory.littleEndian 2 h.canary.toNat

/-- Where the user's bytes start in the block at `outer`. -/
def innerOf (outer : UInt64) : UInt64 :=
  outer + headerSize

/-- The block whose user bytes start at `inner`. -/
def outerOf (inner : UInt64) : UInt64 :=
  inner - headerSize

/-- Write a header at `outer`, and the live footer behind the user's bytes. -/
def install (h : BlockHeader) (m : Memory) (outer : UInt64) : Memory :=
  (m.write outer h.encode.toArray).writeNumber (innerOf outer + h.size) 2 live.footer.toNat

/-- The header of the block whose user bytes start at `inner`. -/
def read (m : Memory) (inner : UInt64) : BlockHeader where
  size := UInt64.ofNat (m.number (inner - 16) 8)
  marker := UInt32.ofNat (m.number (inner - 8) 4)
  category := m (inner - 4)
  canary := UInt16.ofNat (m.number (inner - 2) 2)

/-- The footer behind `size` bytes of user data. -/
def readFooter (m : Memory) (inner size : UInt64) : UInt16 :=
  UInt16.ofNat (m.number (inner + size) 2)

/-- Write the canary and the footer of the block at `inner`. -/
def setMarks (m : Memory) (inner size : UInt64) (marks : Marks) : Memory :=
  (m.writeNumber (inner - 2) 2 marks.canary.toNat).writeNumber (inner + size) 2 marks.footer.toNat

end BlockHeader

end HostServices
