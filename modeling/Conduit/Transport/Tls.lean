import Conduit.Config.Schema
import Mathlib.Tactic.Linarith

/-!
# The listener's certificate table

`buildTable` reads the certificate, the key and the optional OCSP response of
every entry and fails on the first it cannot use.
-/

namespace Conduit

open Foundation

inductive TlsError where
  | readFile (path : String)
  | noCert (path : String)
  | noKey (path : String)
  | rustls (sni : String)
  | noCerts
  deriving DecidableEq, Repr

structure CertifiedKey where
  certs : List Der
  key : Der
  ocsp : Option (List UInt8)
  deriving DecidableEq, Repr

structure CertTable where
  exact : Std.HashMap String CertifiedKey
  wildcard : List (String × CertifiedKey)
  fallback : CertifiedKey

section Loading

variable (platform : Platform) (files : Files)

def readFile (path : String) : Except TlsError (List UInt8) :=
  files.readOr (.readFile path) path

def loadCerts (path : String) : Except TlsError (List Der) := do
  let bytes ← readFile files path
  let certs ← collectPem (TlsError.readFile path) (platform.pemCerts bytes)
  if certs.isEmpty then .error (.noCert path) else return certs

def loadKey (path : String) : Except TlsError Der := do
  let bytes ← readFile files path
  match platform.pemKey bytes with
  | .ok key => return key
  | .error .noItemsFound => .error (.noKey path)
  | .error .invalid => .error (.readFile path)

def loadSpec (spec : Config.CertSpec) : Except TlsError CertifiedKey := do
  let certs ← loadCerts platform files spec.cert
  let key ← loadKey platform files spec.key
  if platform.anySupportedType key then
    match spec.ocspResponse with
    | none => return ⟨certs, key, none⟩
    | some path => return ⟨certs, key, some (← readFile files path)⟩
  else .error (.rustls spec.sni)

def wildcardSuffix (sni : String) : Option String :=
  match sni.toList with
  | '*' :: '.' :: suffix => some (String.ofList suffix)
  | _ => none

/-- The tables while the entries are read; the fallback is the first one. -/
structure TableBuilder where
  exact : Std.HashMap String CertifiedKey := ∅
  wildcard : List (String × CertifiedKey) := []
  fallback : Option CertifiedKey := none

def TableBuilder.add (b : TableBuilder) (sni : String) (ck : CertifiedKey) :
    TableBuilder :=
  let b := { b with fallback := b.fallback.or (some ck) }
  match wildcardSuffix sni with
  | some suffix =>
      { b with wildcard := b.wildcard ++ [(toAsciiLowercase suffix, ck)] }
  | none => { b with exact := b.exact.insert (toAsciiLowercase sni) ck }

def addSpecs : TableBuilder → List Config.CertSpec →
    Except TlsError TableBuilder
  | b, [] => .ok b
  | b, spec :: specs => do
      let ck ← loadSpec platform files spec
      addSpecs (b.add spec.sni ck) specs

def buildTable (specs : List Config.CertSpec) : Except TlsError CertTable :=
  if specs.isEmpty then .error .noCerts
  else do
    let built ← addSpecs platform files {} specs
    match built.fallback with
    | some fallback => return ⟨built.exact, built.wildcard, fallback⟩
    -- Not reached: the first entry has set it.
    | none => .error .noCerts

/-- `load_server_config_with_resolver`, as far as it can fail. -/
def loadServerConfig (tls : Config.TlsConfig) : Except TlsError CertTable :=
  if tls.certs.isEmpty then .error .noCerts
  else buildTable platform files tls.certs

end Loading

end Conduit
