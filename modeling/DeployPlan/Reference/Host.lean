import DeployPlan.HostName.Basic

/-!
# Hosts of references

Which texts are hosts: a bracketed address of eight groups, a name that ends in a number and then
is an address of four parts, or a name without the characters that a host must not hold.
-/
namespace DeployPlan.Host

open HostName (split)

/-- The bytes of a text with percent escapes replaced by what they stand for. -/
def percentBytes : List Char → List UInt8
  | [] => []
  | '%' :: a :: b :: rest =>
    match Text.hexValue? a, Text.hexValue? b with
    | some x, some y => UInt8.ofNat (16 * x + y) :: percentBytes rest
    | _, _ => 0x25 :: percentBytes (a :: b :: rest)
  | c :: rest => String.utf8EncodeChar c ++ percentBytes rest

def decode? (bytes : List UInt8) : Option String := String.fromUTF8? ⟨bytes.toArray⟩

/-- A part of an address of four parts, in the base that its start tells; `none` is no number. -/
def ipv4Number? (part : List Char) : Option Nat :=
  match part with
  | [] => none
  | '0' :: 'x' :: ds => Text.radixValue? 16 ds
  | '0' :: 'X' :: ds => Text.radixValue? 16 ds
  | '0' :: d :: ds => Text.radixValue? 8 (d :: ds)
  | ds => Text.radixValue? 10 ds

/-- The parts of a name between dots, an empty one at the end dropped. -/
def dottedParts (name : List Char) : List (List Char) :=
  let parts := split '.' name
  if parts.getLast? = some [] then parts.dropLast else parts

/-- Whether the last part of a name is a number, so that the name has to be an address. -/
def endsInNumber (name : List Char) : Bool :=
  match (dottedParts name).getLast? with
  | none => false
  | some part => (!part.isEmpty && part.all Char.isDigit) || (ipv4Number? part).isSome

/-- Whether a name is an address of up to four parts, the last one filling the bytes left. -/
def isIpv4 (name : List Char) : Bool :=
  let parts := dottedParts name
  let numbers := parts.filterMap ipv4Number?
  parts.length ≤ 4 && numbers.length = parts.length && numbers.dropLast.all (· ≤ 255) &&
    (numbers.getLast?.any fun last => last < Nat.pow 256 (4 - (numbers.length - 1)))

def isDecimalByte (part : List Char) : Bool :=
  !part.isEmpty && part.length ≤ 3 && part.all Char.isDigit &&
    (part.length = 1 || part.head? ≠ some '0') &&
    (Text.radixValue? 10 part).any (· ≤ 255)

/-- Whether a text is one to four hexadecimal digits. -/
def isGroup (part : List Char) : Bool :=
  !part.isEmpty && part.length ≤ 4 && part.all Text.isHexDigit

/-- Whether a text is four decimal bytes between dots. -/
def isDottedQuad (part : List Char) : Bool :=
  let bytes := split '.' part
  bytes.length = 4 && bytes.all isDecimalByte

/-- How many groups a text between colons has, four bytes at its end counting as two. -/
def groupCount? (cs : List Char) : Option Nat :=
  if cs.isEmpty then some 0
  else
    let parts := split ':' cs
    match parts.getLast? with
    | none => none
    | some last =>
      if parts.all isGroup then some parts.length
      else if parts.dropLast.all isGroup && isDottedQuad last then some (parts.length + 1)
      else none

/-- The texts around the first pair of colons. -/
def splitPair? (front : List Char) : List Char → Option (List Char × List Char)
  | ':' :: ':' :: rest => some (front.reverse, rest)
  | c :: rest => splitPair? (c :: front) rest
  | [] => none

/-- Whether a text is an address of eight groups, some of which a pair of colons may stand for. -/
def isIpv6 (cs : List Char) : Bool :=
  match splitPair? [] cs with
  | none => groupCount? cs = some 8
  | some (front, back) =>
    match groupCount? front, groupCount? back with
    | some a, some b => a + b ≤ 7 && front.all (· ≠ '.')
    | _, _ => false

def isForbidden (c : Char) : Bool :=
  "\x00\t\n\r #/:<>?@[\\]^|".toList.contains c

def isForbiddenInName (c : Char) : Bool :=
  isForbidden c || c.toNat < 32 || c = '%' || c = '\x7f'

def bracketed? (cs : List Char) : Option (List Char) :=
  if cs.getLast? = some ']' then some (cs.drop 1).dropLast else none

/-- The host that a text names in a scheme whose hosts are known: an address as it is written, or
the characters that a name stands for. -/
def named? (cs : List Char) : Option (List Char) :=
  if cs.head? = some '[' then
    (bracketed? cs).bind fun inner => if isIpv6 inner then some cs else none
  else do
    let text ← decode? (percentBytes cs)
    let name ← HostName.ofText? text.toList
    if name.isEmpty || name.any isForbiddenInName then none
    else if endsInNumber name && !isIpv4 name then none
    else some name

/-- Whether a text is a host in a scheme whose hosts are not interpreted; the empty text is. -/
def isOpaque (cs : List Char) : Bool :=
  if cs.head? = some '[' then (bracketed? cs).any isIpv6 else !cs.any isForbidden

end DeployPlan.Host
