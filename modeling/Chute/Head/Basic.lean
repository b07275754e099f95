import Chute.Protocol
import Chute.Server.Values
import Chute.Lib.Lines
import Mathlib.Data.List.DropRight

/-!
# Request heads

The head of a visitor's request is validated byte by byte and forwarded verbatim, so
`_parse_request_head` of `server.py` refuses whatever another parser may read differently.
`ipaddress.IPv6Address` is a parameter: the literals it accepts.
-/
namespace Chute

/-- The reasons of a `_BadRequest`. -/
inductive BadRequest
  | bareCrOrLf
  | badRequestLine
  | badAsteriskTarget
  | nonOriginFormTarget
  | obsFold
  | malformedField
  | wsBeforeColon
  | missingHost
  | duplicateHost
  | emptyHost
  | badHostChar
  | badHost
  | badPort
  deriving DecidableEq, Repr

def BadRequest.reason : BadRequest → String
  | bareCrOrLf => "bare-cr-or-lf"
  | badRequestLine => "bad-request-line"
  | badAsteriskTarget => "bad-asterisk-target"
  | nonOriginFormTarget => "non-origin-form-target"
  | obsFold => "obs-fold"
  | malformedField => "malformed-field"
  | wsBeforeColon => "ws-before-colon"
  | missingHost => "missing-host"
  | duplicateHost => "duplicate-host"
  | emptyHost => "empty-host"
  | badHostChar => "bad-host-char"
  | badHost => "bad-host"
  | badPort => "bad-port"

/-- The bytes of an ASCII text: a literal `b"..."` of the source, or `str.encode`. -/
def ascii (text : String) : Bytes := text.toList.map fun c => UInt8.ofNat c.toNat

/-- `bytes.decode("ascii")`, of bytes that are ASCII. -/
def decodeAscii (v : Bytes) : List Char := v.map fun b => Char.ofNat b.toNat

namespace Head

def htab : UInt8 := 0x09
def lf : UInt8 := 0x0A
def vt : UInt8 := 0x0B
def ff : UInt8 := 0x0C
def cr : UInt8 := 0x0D
def sp : UInt8 := 0x20
def asterisk : UInt8 := 0x2A
def slash : UInt8 := 0x2F
def colon : UInt8 := 0x3A

end Head

open Head

def tchars : Bytes :=
  ascii "ABCDEFGHIJKLMNOPQRSTUVWXYZabcdefghijklmnopqrstuvwxyz0123456789!#$%&'*+-.^_`|~"

def isHttpToken (value : Bytes) : Bool := !value.isEmpty && value.all tchars.contains

def ows (b : UInt8) : Bool := b == sp || b == htab

/-- `bytes.strip(b" \t")`. -/
def stripOws (v : Bytes) : Bytes := (v.dropWhile ows).rdropWhile ows

theorem strip_eq_self {p : UInt8 → Bool} {v : Bytes} (none : ∀ b ∈ v, p b = false) :
    (v.dropWhile p).rdropWhile p = v := by
  have front : v.dropWhile p = v := by
    rw [List.dropWhile_eq_self_iff]
    exact fun some_ => by simp [none _ (List.getElem_mem some_)]
  rw [front, List.rdropWhile_eq_self_iff]
  exact fun some_ => by simp [none _ (List.getLast_mem some_)]

/-- `bytes.lower`. -/
def lowerBytes (v : Bytes) : Bytes := v.map fun b => if 0x41 ≤ b ∧ b ≤ 0x5A then b + 0x20 else b

/-! ### The Host field -/

def decimal (digits : List Char) : Nat := digits.foldl (fun n c => 10 * n + (c.toNat - '0'.toNat)) 0

/-- `_check_port`. -/
def checkPort (port : List Char) : Except BadRequest Unit :=
  if port ≠ [] ∧ port.all Char.isDigit ∧ port.length ≤ 5 ∧ decimal port ≤ 65535 then .ok ()
  else .error .badPort

/-- `_strip_port`. -/
def stripPort (ipv6 : String → Bool) (host : List Char) : Except BadRequest (List Char) :=
  match host with
  | '[' :: inner =>
    match Lines.partition ']' inner with
    | none => .error .badHost
    | some (literal, rest) =>
      if ipv6 (String.ofList literal) then
        match rest with
        | [] => .ok ('[' :: literal ++ [']'])
        | ':' :: port => (checkPort port).map fun _ => '[' :: literal ++ [']']
        | _ => .error .badHost
      else .error .badHost
  | _ =>
    match Lines.rpartition ':' host with
    | none => .ok host
    | some (name, port) =>
      if name = [] ∨ ':' ∈ name then .error .badHost else (checkPort port).map fun _ => name

/-- `_validate_host`. -/
def validateHost (ipv6 : String → Bool) (value : Bytes) : Except BadRequest String :=
  let v := stripOws value
  if v = [] then .error .emptyHost
  else if v.any fun b => b < 0x21 || 0x7E < b then .error .badHostChar
  else
    match stripPort ipv6 (decodeAscii v) with
    | .error reason => .error reason
    | .ok stripped =>
      let host := stripped.map lowerChar
      if host = [] ∨ '@' ∈ host then .error .badHost
      else if host.head? = some '[' then .ok (String.ofList host)
      else if ':' ∈ host then .error .badHost
      else
        let rootless := if host.getLast? = some '.' then host.dropLast else host
        if rootless = [] ∨ (rootless.splitOn '.').any fun part => !validLabel (String.ofList part) then
          .error .badHost
        else .ok (String.ofList host)

/-! ### The head -/

/-- The request line as the relay splits it. -/
structure RequestLine where
  method : Bytes
  target : Bytes
  version : Bytes
  deriving DecidableEq, Repr

def http10 : Bytes := ascii "HTTP/1.0"
def http11 : Bytes := ascii "HTTP/1.1"

/-- The part of `_parse_request_head` about the first line. -/
def parseRequestLine (line : Bytes) : Except BadRequest RequestLine :=
  match line.splitOn sp with
  | [method, target, version] =>
    if isHttpToken method ∧ target ≠ [] ∧ (version = http10 ∨ version = http11) then
      if target = [asterisk] then .ok ⟨method, target, version⟩
      else if target.head? = some slash then .ok ⟨method, target, version⟩
      else if target.head? = some asterisk then .error .badAsteriskTarget
      else .error .nonOriginFormTarget
    else .error .badRequestLine
  | _ => .error .badRequestLine

/-- The name and the value of every field line, up to the blank line. -/
def parseFields : List Bytes → Except BadRequest (List (Bytes × Bytes))
  | [] => .ok []
  | line :: lines =>
    if line = [] then .ok []
    else if (line.head?.any ows) then .error .obsFold
    else
      match Lines.partition colon line with
      | none => .error .malformedField
      | some (name, value) =>
        if isHttpToken name ∧ stripOws name = name then
          (parseFields lines).map fun fields => (name, value) :: fields
        else .error .wsBeforeColon

/-- The values of the Host fields. -/
def rawHosts (fields : List (Bytes × Bytes)) : List Bytes :=
  (fields.filter fun field => lowerBytes field.1 = ascii "host").map Prod.snd

structure RequestHead where
  host : Option String
  deriving DecidableEq, Repr

/-- The first line of a head, and the fields below it. -/
def readHead (head : Bytes) : Except BadRequest (RequestLine × List (Bytes × Bytes)) :=
  let bare := Lines.removePair cr lf head
  if cr ∈ bare ∨ lf ∈ bare then .error .bareCrOrLf
  else
    let lines := Lines.splitPair cr lf head
    (parseRequestLine (lines.headD [])).bind fun line =>
      (parseFields lines.tail).map fun fields => (line, fields)

/-- `_parse_request_head`. -/
def parseRequestHead (ipv6 : String → Bool) (head : Bytes) (requireHost : Bool) :
    Except BadRequest RequestHead :=
  (readHead head).bind fun (line, fields) =>
    match rawHosts fields with
    | [] => if requireHost ∨ line.version = http11 then .error .missingHost else .ok ⟨none⟩
    | [value] => (validateHost ipv6 value).map fun host => ⟨some host⟩
    | _ => .error .duplicateHost

end Chute
