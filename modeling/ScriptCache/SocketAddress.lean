import ScriptCache.Url.Address

/-!
# Addresses to listen on
-/

namespace ScriptCache

structure SocketAddress where
  host : Ipv4 ⊕ Ipv6
  /-- The number of the network that an address of the longer kind is meant in. -/
  scope : Nat := 0
  port : Nat
  deriving DecidableEq, Repr

namespace SocketAddress

def readPort (digits : List Char) : Option Nat :=
  if digits.isEmpty || !digits.all Text.isDigit || 65535 < Text.decimal digits then none
  else some (Text.decimal digits)

def readScope (digits : List Char) : Option Nat :=
  if digits.isEmpty || !digits.all Text.isDigit || UInt32.size ≤ Text.decimal digits then none
  else some (Text.decimal digits)

/-- Four bytes in decimal, with dots between them. -/
def readIpv4 (text : List Char) : Option Ipv4 := do
  let bytes ← (text.splitOn '.').mapM Ipv6.byte?
  if bytes.length = 4 then Ipv4.ofNumbers? bytes else none

def ofText? (text : String) : Option SocketAddress :=
  match text.toList with
  | '[' :: inside =>
    match inside.span (· ≠ ']') with
    | (address, ']' :: ':' :: port) =>
      match address.span (· ≠ '%') with
      | (address, []) => do
        return { host := .inr (← Ipv6.ofText? address), port := ← readPort port }
      | (address, _ :: scope) => do
        return { host := .inr (← Ipv6.ofText? address), scope := ← readScope scope,
                 port := ← readPort port }
    | _ => none
  | text =>
    match text.span (· ≠ ':') with
    | (address, _ :: port) => do
      return { host := .inl (← readIpv4 address), port := ← readPort port }
    | _ => none

/-- An address whose last four bytes are one of the shorter kind is written with dots. -/
def ipv6Text (a : Ipv6) : List Char :=
  match a with
  | [0, 0, 0, 0, 0, 0xFFFF, high, low] =>
    "::ffff:".toList ++ ['.'].intercalate
      ([high / 256, high % 256, low / 256, low % 256].map fun b ↦ (toString b).toList)
  | a => Ipv6.text a

def text (a : SocketAddress) : String :=
  let host := match a.host with
    | .inl a => String.ofList (Ipv4.text a)
    | .inr v6 => "[" ++ String.ofList (ipv6Text v6)
        ++ (if a.scope = 0 then "" else "%" ++ toString a.scope) ++ "]"
  host ++ ":" ++ toString a.port

end SocketAddress

end ScriptCache
