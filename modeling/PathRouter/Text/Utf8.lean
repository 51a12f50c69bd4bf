/-!
# Lossy decoding of UTF-8

Octets are read one at a time. An octet that cannot go on with the character begun before it
turns what was read of that character into one replacement character and is then read afresh.
-/
namespace PathRouter.Text.Utf8

/-- A character of which some octets are still owed. -/
structure Pending where
  /-- How many octets are owed. -/
  owed : Nat
  /-- The least and the greatest octet that may come next. -/
  least : Nat
  greatest : Nat
  /-- The bits read so far. -/
  bits : Nat

/-- Stands for octets that belong to no character. -/
def replacement : Char := '\uFFFD'

/-- The first octet of a character. The ranges of the second octet leave out overlong forms,
surrogates and numbers above the last code point. -/
def first (octet : Nat) : List Char × Option Pending :=
  if octet ≤ 0x7F then ([Char.ofNat octet], none)
  else if 0xC2 ≤ octet ∧ octet ≤ 0xDF then ([], some ⟨1, 0x80, 0xBF, octet - 0xC0⟩)
  else if octet = 0xE0 then ([], some ⟨2, 0xA0, 0xBF, 0⟩)
  else if octet = 0xED then ([], some ⟨2, 0x80, 0x9F, 0xD⟩)
  else if 0xE1 ≤ octet ∧ octet ≤ 0xEF then ([], some ⟨2, 0x80, 0xBF, octet - 0xE0⟩)
  else if octet = 0xF0 then ([], some ⟨3, 0x90, 0xBF, 0⟩)
  else if 0xF1 ≤ octet ∧ octet ≤ 0xF3 then ([], some ⟨3, 0x80, 0xBF, octet - 0xF0⟩)
  else if octet = 0xF4 then ([], some ⟨3, 0x80, 0x8F, 4⟩)
  else ([replacement], none)

/-- One octet: the characters it completes and what is then pending. -/
def step : Option Pending → Nat → List Char × Option Pending
  | none, octet => first octet
  | some p, octet =>
    if p.least ≤ octet ∧ octet ≤ p.greatest then
      let bits := p.bits * 0x40 + (octet - 0x80)
      if p.owed = 1 then ([Char.ofNat bits], none) else ([], some ⟨p.owed - 1, 0x80, 0xBF, bits⟩)
    else
      let (chars, pending) := first octet
      (replacement :: chars, pending)

/-- The characters of the octets that follow `pending`; an unfinished one is replaced too. -/
def decodeFrom : Option Pending → List Nat → List Char
  | none, [] => []
  | some _, [] => [replacement]
  | pending, octet :: rest =>
    let (chars, next) := step pending octet
    chars ++ decodeFrom next rest

def decode (octets : List Nat) : List Char := decodeFrom none octets

end PathRouter.Text.Utf8
