import Keysmith.Certificate.Hostname
import Keysmith.Failure
import Keysmith.Ipv4

/-! # Subject alternative names

The certificate extension that names the server by host name and address.  The
tool's syntax for it has no escapes, so the host name has to be a plain DNS name;
that it is one is part of the type.  `entries?` reads the syntax. -/

namespace Keysmith

/-- The names of the server beside its subject. -/
structure SubjectAltName where
  dns : String
  ip : Ipv4
  plain : Hostname.isPlain dns = true
  deriving DecidableEq, Repr

namespace SubjectAltName

open Text

/-- Name a server; refused unless the host name is a plain DNS name. -/
def ofHost (dns : String) (ip : Ipv4) : Except Failure SubjectAltName :=
  if h : Hostname.isPlain dns = true then .ok ⟨dns, ip, h⟩
  else .error (.invalidHostname dns)

/-- The written form of the extension. -/
def chars (san : SubjectAltName) : List Char :=
  "san=dns:".toList ++ (san.dns.toList ++ (",ip:".toList ++ san.ip.chars))

/-- The written form of the extension, as a string. -/
def text (san : SubjectAltName) : String := String.ofList san.chars

/-- Read an extension: `san=`, then entries with commas between them, each a kind
    and a value with a colon between them. -/
def entries? (s : List Char) : Option (List (List Char × List Char)) :=
  if "san=".toList.isPrefixOf s then
    (pieces (· == ',') (s.drop 4)).mapM fun entry =>
      match cutAt (· == ':') entry with
      | (kind, _ :: value) => some (kind, value)
      | (_, []) => none
  else none

end SubjectAltName

end Keysmith
