import CommitReports.Text.Hexadecimal
import CommitReports.Text.Utf8

/-!
# Addresses of remotes

A remote is another repository on the same disk. Its address is a path, or a URL
of the scheme `file`, whose path may have bytes written as a percent sign with
two digits.
-/

namespace CommitReports.Git

/-- Where the repository of a remote is. -/
inductive Address where
  | path (path : String)
  /-- The path that a URL gives. -/
  | file (path : String)
  /-- A URL that gives no path. -/
  | invalid (url : String)
  deriving DecidableEq, Repr

namespace Address

/-- Bytes with those in their places that are written as two digits. -/
def decodePercent : List Char → List UInt8
  | [] => []
  | '%' :: a :: b :: rest =>
    if Text.isHexDigit a && Text.isHexDigit b then
      Text.hexByte a b :: decodePercent rest
    else '%'.toString.toUTF8.toList ++ decodePercent (a :: b :: rest)
  | c :: rest => c.toString.toUTF8.toList ++ decodePercent rest

/-- The path that the text of a URL behind its scheme spells. -/
def pathOf (text : List Char) : String := Text.decodeLossy ⟨(decodePercent text).toArray⟩

/-- The scheme of addresses that are URLs. -/
def scheme : String := "file://"

/-- The host that stands for this computer. -/
def thisHost : String := "localhost"

/-- The address that a text spells. -/
def ofText (text : String) : Address :=
  if !text.startsWith scheme then .path text
  else
    let body := text.toList.drop scheme.length
    if body.head? = some '/' then .file (pathOf body)
    else if (thisHost ++ "/").toList.isPrefixOf body then
      .file (pathOf (body.drop thisHost.length))
    else .invalid text

end Address

end CommitReports.Git
