import HostServices.Proofs.Json.RoundTrip

/-!
# Codecs for documents

What readers of documents need of a printer and a scanner is one law: an object whose members have
different names and plain values is scanned from its text as it is. The printer and the scanner of
this library keep it (`codec`), and so does any other pair that writes objects, truth values, words,
nulls and strings in the standard way.
-/

namespace HostServices.Json

/-- Values that are no lists: null, truth values, words and strings. -/
inductive Plain : Json → Prop
  | null : Plain .null
  | bool (b : Bool) : Plain (.bool b)
  | word (a : UInt64) : Plain (.ofWord a)
  | string (s : String) : Plain (.ofString s)

theorem Plain.complete {j : Json} (h : Plain j) : Complete j := by
  cases h with
  | null => exact .null
  | bool b => exact .bool b
  | word a => exact .number a.toNat
  | string s => exact .string s

/-- A printer of documents and a scanner that undoes it. -/
structure Codec where
  write : Json → String
  scan : String → Document
  /-- Members with different names and plain values are read back. -/
  scan_write {members : List (Token × Json)} (hkeys : ∀ m ∈ members, m.1.paired = true)
    (hnodup : (members.map (·.1.text)).Nodup) (hplain : ∀ m ∈ members, m.2.Plain) :
    scan (write (.object members .closed)) = ⟨.object members .closed, false⟩

/-- Read a whole text. -/
def Codec.decode {α : Type} (C : Codec) (read : Json → Except Problem α) (text : String) :
    Except Problem α :=
  (C.scan text).read read

/-- Reading the text of an object is reading the object. -/
theorem Codec.decode_write {α : Type} (C : Codec) (read : Json → Except Problem α)
    {members : List (Token × Json)} (hkeys : ∀ m ∈ members, m.1.paired = true)
    (hnodup : (members.map (·.1.text)).Nodup) (hplain : ∀ m ∈ members, m.2.Plain) :
    C.decode read (C.write (.object members .closed)) = read (.object members .closed) := by
  rw [decode, C.scan_write hkeys hnodup hplain, Document.read]
  cases read (.object members .closed) <;> rfl

/-- The printer and the scanner of this library. -/
def codec : Codec where
  write := render
  scan := scan
  scan_write hkeys _ hplain := scan_render (.object hkeys fun m hm => (hplain m hm).complete)

@[simp] theorem write_codec (j : Json) : codec.write j = j.render := rfl
@[simp] theorem decode_codec {α : Type} (read : Json → Except Problem α) (text : String) :
    codec.decode read text = decode read text := rfl

end HostServices.Json
