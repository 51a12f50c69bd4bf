import PathRouter.Text.Utf8

/-!
# Percent-decoding

Every longest run of ASCII characters is decoded on its own: `%` and two hexadecimal digits are
one octet, any other character is the octet of its code, and the octets are read as UTF-8. What is
not ASCII stays.
-/
namespace PathRouter.Text.Percent

def isAscii (c : Char) : Bool := c.toNat < 0x80

def hexValue? (c : Char) : Option Nat :=
  if '0' ≤ c ∧ c ≤ '9' then some (c.toNat - '0'.toNat)
  else if 'a' ≤ c ∧ c ≤ 'f' then some (c.toNat - 'a'.toNat + 10)
  else if 'A' ≤ c ∧ c ≤ 'F' then some (c.toNat - 'A'.toNat + 10)
  else none

/-- The octets of ASCII text. A `%` without two hexadecimal digits stands for itself. -/
def octets : List Char → List Nat
  | '%' :: high :: low :: rest =>
    match hexValue? high, hexValue? low with
    | some h, some l => (h * 16 + l) :: octets rest
    | _, _ => '%'.toNat :: octets (high :: low :: rest)
  | c :: rest => c.toNat :: octets rest
  | [] => []

/-- A run of characters that are all ASCII or all not. -/
def decodeRun (run : List Char) : List Char :=
  if run.all isAscii then Utf8.decode (octets run) else run

def decode (text : String) : String :=
  String.ofList ((text.toList.splitBy fun a b => isAscii a == isAscii b).flatMap decodeRun)

end PathRouter.Text.Percent
