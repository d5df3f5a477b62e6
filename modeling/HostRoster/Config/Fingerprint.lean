import HostRoster.Host
import HostRoster.Digest.Sha256

/-!
# Fingerprints of declarations

A declaration is spelled as bytes in key order, every text behind its length and
every optional text behind a mark, so that different declarations are spelled
differently. The fingerprint is the digest of that spelling.
-/
namespace HostRoster.Fingerprint

def textBytes (text : String) : List UInt8 := text.toUTF8.toList

/-- A text behind its length in eight bytes. -/
def spellText (text : String) : List UInt8 :=
  Sha256.bigEndian 8 text.utf8ByteSize ++ textBytes text

/-- An optional text behind a mark that says whether it is there. -/
def spellOption : Option String → List UInt8
  | some text => 1 :: spellText text
  | none => [0]

def spellHost (key : String) (s : HostSpec) : List UInt8 :=
  spellText key ++ spellText s.zone ++ spellOption s.subnetId ++
    (if s.assignPublicIp then 1 else 0) :: spellOption s.replicationSource

def spell (hosts : Declaration) : List UInt8 :=
  hosts.entries.flatMap fun e => spellHost e.1 e.2

def ofHosts (hosts : Declaration) : String := Sha256.hex (Sha256.digest (spell hosts))

def ofCluster (clusterId : String) (hosts : Declaration) : String :=
  Sha256.hex (Sha256.digest (textBytes clusterId ++ textBytes (ofHosts hosts)))

/-- The first eight characters, which are shown to people. -/
def short (hash : String) : String := .ofList (hash.toList.take 8)

end HostRoster.Fingerprint
