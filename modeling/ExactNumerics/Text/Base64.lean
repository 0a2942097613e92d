/-!
# Bytes in base 64

Four characters of an alphabet of sixty-four stand for three bytes. Characters outside the alphabet
are passed over. Equals signs fill up an incomplete group of four and end the text, but count only
after two characters of a group.

## Main definitions

* `Base64.sextet?`: the six bits of a character.
* `Base64.decode?`: the bytes that a text stands for.
-/

namespace ExactNumerics

namespace Base64

/-- The six bits of a character of the alphabet. -/
def sextet? (c : Char) : Option Nat :=
  let n := c.toNat
  if 'A' ≤ c && c ≤ 'Z' then some (n - 65)
  else if 'a' ≤ c && c ≤ 'z' then some (n - 97 + 26)
  else if '0' ≤ c && c ≤ '9' then some (n - 48 + 52)
  else if c = '+' then some 62
  else if c = '/' then some 63
  else none

/-- What is known in the middle of a group of four characters. -/
structure Group where
  /-- How many characters of the group were read. -/
  position : Nat := 0
  /-- The bits that are not yet part of a byte. -/
  bits : Nat := 0
  /-- How many signs in a row have filled up the group. -/
  fillers : Nat := 0

/-- The group after one more character, with the byte that it completes. -/
def Group.add (g : Group) (sextet : Nat) : Option UInt8 × Group :=
  match g.position with
  | 0 => (none, ⟨1, sextet, 0⟩)
  | 1 => (some (UInt8.ofNat (g.bits * 4 + sextet / 16)), ⟨2, sextet % 16, 0⟩)
  | 2 => (some (UInt8.ofNat (g.bits * 16 + sextet / 4)), ⟨3, sextet % 4, 0⟩)
  | _ => (some (UInt8.ofNat (g.bits * 64 + sextet)), {})

/-- The bytes of a text that starts in the middle of a group; a group that stays incomplete is
refused. -/
def decodeFrom? (g : Group) : List Char → Option (List UInt8)
  | [] => if g.position = 0 then some [] else none
  | c :: cs =>
    if c = '=' then
      let filled : Group := { g with fillers := g.fillers + 1 }
      if g.position < 2 then decodeFrom? g cs
      else if 4 ≤ filled.position + filled.fillers then some []
      else decodeFrom? filled cs
    else
      match sextet? c with
      | none => decodeFrom? g cs
      | some s =>
        let (byte?, next) := g.add s
        (decodeFrom? next cs).map (byte?.toList ++ ·)

/-- The bytes that a text stands for. -/
def decode? (cs : List Char) : Option ByteArray :=
  (decodeFrom? {} cs).map fun bs => ⟨bs.toArray⟩

end Base64

end ExactNumerics
