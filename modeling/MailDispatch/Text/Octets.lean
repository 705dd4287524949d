/-! # Octets of a text

Bodies and documents arrive as octets. A text is written as its UTF-8 octets, and
octets are read as a text only if they are well formed.
-/
namespace MailDispatch.Text

abbrev Octets := List UInt8

namespace Octets

def ofChars (s : List Char) : Octets := s.flatMap String.utf8EncodeChar

def ofString (s : String) : Octets := s.toUTF8.toList

/-- The text that the octets spell, if they are well formed. -/
def text? (o : Octets) : Option String := String.fromUTF8? ⟨o.toArray⟩

/-- The place of the first octet, from a place on, that does not belong to a character. -/
def spelledFrom (b : ByteArray) : Nat → Nat → Nat
  | 0, i => i
  | fuel + 1, i =>
    match b.utf8DecodeChar? i with
    | some c => spelledFrom b fuel (i + c.utf8Size)
    | none => i

/-- How many octets, from the first one on, spell characters. -/
def spelled (o : Octets) : Nat := spelledFrom ⟨o.toArray⟩ o.length 0

def isDigit (b : UInt8) : Bool := 48 ≤ b && b ≤ 57

def digitValue (b : UInt8) : Nat := b.toNat - 48

/-- The value of a hexadecimal digit of either case. -/
def hexValue? (b : UInt8) : Option Nat :=
  if isDigit b then some (b.toNat - 48)
  else if 97 ≤ b && b ≤ 102 then some (b.toNat - 87)
  else if 65 ≤ b && b ≤ 70 then some (b.toNat - 55)
  else none

end Octets
end MailDispatch.Text
