/-!
# Byte offsets in text

Offsets count the bytes of the UTF-8 form. Text is only cut between characters.
-/

namespace HostServices.Text

/-- The number of bytes of a text. -/
def byteCount (cs : List Char) : Nat :=
  cs.foldr (fun c n => c.utf8Size + n) 0

/-- The text from an offset on, unless the offset lies inside a character or beyond the end. -/
def dropBytes? : List Char → Nat → Option (List Char)
  | cs, 0 => some cs
  | [], _ + 1 => none
  | c :: cs, n + 1 => if c.utf8Size ≤ n + 1 then dropBytes? cs (n + 1 - c.utf8Size) else none

/-- The text before an offset, unless the offset lies inside a character or beyond the end. -/
def takeBytes? : List Char → Nat → Option (List Char)
  | _, 0 => some []
  | [], _ + 1 => none
  | c :: cs, n + 1 =>
    if c.utf8Size ≤ n + 1 then (takeBytes? cs (n + 1 - c.utf8Size)).map (c :: ·) else none

/-- The text between two offsets. -/
def cutBytes? (cs : List Char) (start stop : Nat) : Option (List Char) :=
  (dropBytes? cs start).bind fun cs => takeBytes? cs (stop - start)

theorem dropBytes?_append (a b : List Char) : dropBytes? (a ++ b) (byteCount a) = some b := by
  induction a with
  | nil => simp [byteCount, dropBytes?]
  | cons c a ih =>
    have hpos := c.utf8Size_pos
    have hsum : byteCount (c :: a) = (c.utf8Size - 1 + byteCount a) + 1 := by
      simp [byteCount]; omega
    rw [hsum, List.cons_append, dropBytes?, if_pos (by omega)]
    rw [show c.utf8Size - 1 + byteCount a + 1 - c.utf8Size = byteCount a by omega, ih]

end HostServices.Text
