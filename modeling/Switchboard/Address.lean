import Switchboard.Text.Numeral
import Switchboard.Text.Cut

/-!
# Network addresses

Internet addresses and ports as text. An IPv4 address is four decimal numbers; an IPv6 address is
eight hexadecimal groups, of which one run of zero groups may be left out. Written forms are
canonical: the longest run of at least two zero groups is left out, the first of equally long ones,
and an address that embeds an IPv4 one shows it.
-/

namespace Switchboard

/-- An internet address. -/
inductive Ip where
  | v4 (bytes : List Nat)
  /-- Eight groups of 16 bits, with the zone in which they count; 0 is the default zone. -/
  | v6 (groups : List Nat) (zone : Nat)
  deriving DecidableEq, Repr

/-- An address with a port. -/
structure SocketAddress where
  ip : Ip
  port : UInt16
  deriving DecidableEq, Repr

namespace Ip

open Text

/-! ## Reading -/

/-- Reads a number of at most `limit` digits at the front. -/
def number? (base limit : Nat) (cs : List Char) : Option (Nat × List Char) :=
  let ds := cs.takeWhile (isDigitOf base)
  if ds.length ≤ limit then (digits? base ds).map fun n => (n, cs.drop ds.length) else none

/-- Reads one byte of an IPv4 address: up to three digits, the first of several not being 0. -/
def byte? (cs : List Char) : Option (Nat × List Char) :=
  match number? 10 3 cs with
  | some (n, rest) =>
    if n < 256 ∧ (cs.head? = some '0' → cs.length = rest.length + 1) then some (n, rest) else none
  | none => none

/-- Reads a full stop and a byte. -/
def dotByte? : List Char → Option (Nat × List Char)
  | '.' :: cs => byte? cs
  | _ => none

/-- Reads an IPv4 address at the front. -/
def v4Bytes? (cs : List Char) : Option (List Nat × List Char) := do
  let (a, cs) ← byte? cs
  let (b, cs) ← dotByte? cs
  let (c, cs) ← dotByte? cs
  let (d, cs) ← dotByte? cs
  some ([a, b, c, d], cs)

/-- Reads up to `limit` groups separated by colons; an IPv4 address may stand for the last two.
The flag says whether one did. -/
def groups (limit : Nat) (first : Bool) (cs : List Char) : List Nat × Bool × List Char :=
  match limit with
  | 0 => ([], false, cs)
  | limit + 1 =>
    let body? := if first then some cs else
      match cs with
      | ':' :: rest => some rest
      | _ => none
    match body? with
    | none => ([], false, cs)
    | some body =>
      -- an embedded IPv4 address needs room for two groups
      match if limit = 0 then none else v4Bytes? body with
      | some ([a, b, c, d], rest) => ([a * 256 + b, c * 256 + d], true, rest)
      | _ =>
        match number? 16 4 body with
        | some (n, rest) =>
          let (ns, embedded, rest) := groups limit false rest
          (n :: ns, embedded, rest)
        | none => ([], false, cs)

/-- Reads an IPv6 address at the front. -/
def v6Groups? (cs : List Char) : Option (List Nat × List Char) :=
  match groups 8 true cs with
  | (front, embedded, rest) =>
    if front.length = 8 then some (front, rest)
    else if embedded then none
    else
      match rest with
      | ':' :: ':' :: rest =>
        let (back, _, rest) := groups (7 - front.length) true rest
        some (front ++ List.replicate (8 - front.length - back.length) 0 ++ back, rest)
      | _ => none

/-- Reads the zone of an IPv6 address, if one is given. -/
def zone? (cs : List Char) : Option (Nat × List Char) :=
  match cs with
  | '%' :: cs =>
    let ds := cs.takeWhile (isDigitOf 10)
    ((digits? 10 ds).filter (· < UInt32.size)).map fun n => (n, cs.drop ds.length)
  | cs => some (0, cs)

/-- Reads an address as it stands in front of a port: IPv6 in brackets. -/
def bracketed? (cs : List Char) : Option Ip :=
  match cs with
  | '[' :: cs => do
    let (gs, cs) ← v6Groups? cs
    let (zone, cs) ← zone? cs
    if cs = [']'] then some (.v6 gs zone) else none
  | cs => do
    let (bs, cs) ← v4Bytes? cs
    if cs = [] then some (.v4 bs) else none

/-- Reads one number of a shorthand IPv4 address: hexadecimal after `0x`, octal after `0`. -/
def shorthandNumber? : List Char → Option Nat
  | '0' :: 'x' :: cs => digits? 16 cs
  | '0' :: 'X' :: cs => digits? 16 cs
  | '0' :: cs => if cs = [] then some 0 else digits? 8 cs
  | cs => digits? 10 cs

/-- The numbers between full stops. -/
def splitDots (cs : List Char) : List (List Char) :=
  cs.splitOn '.'

/-- Reads a shorthand IPv4 address: up to four numbers, of which the last fills the bytes that the
others leave. -/
def shorthand? (cs : List Char) : Option Ip := do
  let ns ← (splitDots cs).mapM shorthandNumber?
  let last ← ns.getLast?
  let front := ns.dropLast
  let width := 4 - front.length
  if ns.length ≤ 4 ∧ front.all (· < 256) ∧ last < Nat.pow 256 width then
    some (.v4 (front ++ (List.range width).reverse.map fun i => last / Nat.pow 256 i % 256))
  else none

/-- Reads an IPv6 address without brackets. -/
def bareV6? (cs : List Char) : Option Ip := do
  let (gs, cs) ← v6Groups? cs
  let (zone, cs) ← zone? cs
  if cs = [] then some (.v6 gs zone) else none

/-- Reads the literal address of a host: as in front of a port, else in one of the looser forms. -/
def ofLiteral? (s : String) : Option Ip :=
  let cs := s.toList
  (bracketed? cs).or ((shorthand? cs).or (bareV6? cs))

/-! ## Writing -/

/-- Numbers in decimal with full stops between them. -/
def dotted (bytes : List Nat) : String :=
  ".".intercalate (bytes.map toString)

/-- A group in hexadecimal digits without leading zeros. -/
def groupText (n : Nat) : String :=
  .ofList ((Nat.toDigits 16 n))

/-- Groups with colons between them. -/
def groupsText (gs : List Nat) : String :=
  ":".intercalate (gs.map groupText)

/-- Length of the run of zero groups at the front. -/
def zeroRun (gs : List Nat) : Nat :=
  (gs.takeWhile (· == 0)).length

/-- Place and length of the longest run of zero groups, the first of equally long ones. -/
def longestZeroRun (gs : List Nat) : Nat × Nat :=
  (List.range gs.length).foldl
    (fun best i => if best.2 < zeroRun (gs.drop i) then (i, zeroRun (gs.drop i)) else best) (0, 0)

/-- The canonical text of IPv6 groups. -/
def v6Text (gs : List Nat) : String :=
  match gs with
  | [0, 0, 0, 0, 0, 0xFFFF, a, b] => "::ffff:" ++ dotted [a / 256, a % 256, b / 256, b % 256]
  | gs =>
    let (start, len) := longestZeroRun gs
    if 1 < len then groupsText (gs.take start) ++ "::" ++ groupsText (gs.drop (start + len))
    else groupsText gs

/-- An address as it stands in front of a port. -/
def text : Ip → String
  | v4 bytes => dotted bytes
  | v6 gs zone => "[" ++ v6Text gs ++ (if zone = 0 then "" else "%" ++ toString zone) ++ "]"

end Ip

/-- The canonical text of an address with a port. -/
def SocketAddress.text (a : SocketAddress) : String :=
  a.ip.text ++ ":" ++ toString a.port

end Switchboard
