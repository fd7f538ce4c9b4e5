import Realmroot.Library.Hosts
import Realmroot.Library.Numerals
import Realmroot.Platform

/-!
# Keys of federated credentials

The check of the address from which the keys of a federated credential are fetched.
-/

namespace Realmroot

open Hosts Numerals

/-- `replace(/^\[|\]$/g, '')`. -/
def withoutBrackets (host : List Char) : List Char :=
  let host := if host.head? = some '[' then host.tail else host
  if host.getLast? = some ']' then host.dropLast else host

/-- A part that is an integer from 0 to 255. -/
def octet : Number → Option ℕ
  | .finite value => if value.den = 1 ∧ 0 ≤ value ∧ value ≤ 255 then some value.num.toNat else none
  | _ => none

/-- The decimal addresses that `isPrivateHostname` refuses. -/
def isPrivateAddress (host : List Char) : Bool :=
  match ((labels host).map toNumber).mapM octet with
  | some [a, b, _, _] =>
    a = 10 || a = 127 || (a = 169 && b = 254) || (a = 172 && 16 ≤ b && b ≤ 31) ||
      (a = 192 && b = 168) || a = 0
  | _ => false

/-- Host names are ASCII, and so is their lower case. -/
def isPrivateHostname (hostname : String) : Bool :=
  let host := withoutBrackets (hostname.toList.map Char.toLower)
  if host = "localhost".toList || ".localhost".toList.isSuffixOf host ||
      ".local".toList.isSuffixOf host then true
  else if host = "::1".toList || "fc".toList.isPrefixOf host || "fd".toList.isPrefixOf host ||
      "fe80:".toList.isPrefixOf host then true
  else isPrivateAddress host

def validateJwksUrl [Platform] (value : String) : Except Error Unit :=
  match Platform.parseUrl value with
  | none => .error (.badRequest "jwksUrl must be a valid public HTTPS URL.")
  | some url =>
    if url.protocol ≠ "https:" ∨ url.username ≠ "" ∨ url.password ≠ "" ∨ url.hash ≠ "" ∨
        isPrivateHostname url.hostname = true then
      .error (.badRequest "jwksUrl must be a valid public HTTPS URL.")
    else .ok ()

example : isPrivateHostname "192.168.0.1" = true := by decide +kernel

example : isPrivateHostname "[fe90::1]" = false := by decide +kernel

end Realmroot
