import Conduit.Foundation.Text
import Mathlib.Tactic.IntervalCases

/-!
# What the proxy takes from its platform

Durations, socket addresses and their rendering from the standard library;
header maps, URIs and requests from the `http` crate.  Functions of
third-party crates whose result the proxy depends on, but whose code is not
part of the repository, are the fields of `Platform`.
-/

namespace Conduit

open Foundation

def u64Max : Nat := 2 ^ 64 - 1

/-! ## Durations -/

structure Duration where
  nanos : Nat
  deriving DecidableEq, Repr

namespace Duration

def zero : Duration := ⟨0⟩

def fromMillis (millis : Nat) : Duration := ⟨millis * 1000000⟩

def fromSecs (secs : Nat) : Duration := ⟨secs * 1000000000⟩

def asMillis (d : Duration) : Nat := d.nanos / 1000000

def asMicros (d : Duration) : Nat := d.nanos / 1000

end Duration

/-! ## Socket addresses -/

structure Ipv4Addr where
  a : UInt8
  b : UInt8
  c : UInt8
  d : UInt8
  deriving DecidableEq, Repr

structure Ipv6Addr where
  segments : List UInt16
  length_segments : segments.length = 8
  deriving DecidableEq

inductive SocketAddr where
  | v4 (ip : Ipv4Addr) (port : UInt16)
  | v6 (ip : Ipv6Addr) (port : UInt16) (scopeId : UInt32)
  deriving DecidableEq

def decimal (n : Nat) : List Char := Nat.toDigits 10 n

def lowerHex (n : Nat) : List Char := Nat.toDigits 16 n

def Ipv4Addr.display (ip : Ipv4Addr) : List Char :=
  decimal ip.a.toNat ++ '.' :: decimal ip.b.toNat ++ '.' ::
    decimal ip.c.toNat ++ '.' :: decimal ip.d.toNat

structure Span where
  start : Nat := 0
  len : Nat := 0

def longestZeroSpan : List UInt16 → Nat → Span → Span → Span
  | [], _, longest, _ => longest
  | segment :: rest, index, longest, current =>
      if segment = 0 then
        let start := if current.len = 0 then index else current.start
        let current : Span := ⟨start, current.len + 1⟩
        longestZeroSpan rest (index + 1)
          (if longest.len < current.len then current else longest) current
      else longestZeroSpan rest (index + 1) longest {}

def fmtSubslice : List UInt16 → List Char
  | [] => []
  | first :: tail =>
      lowerHex first.toNat ++ tail.flatMap fun s => ':' :: lowerHex s.toNat

def Ipv6Addr.toIpv4Mapped (ip : Ipv6Addr) : Option Ipv4Addr :=
  match ip.segments with
  | [0, 0, 0, 0, 0, 0xffff, ab, cd] =>
      some ⟨(ab >>> 8).toUInt8, ab.toUInt8, (cd >>> 8).toUInt8, cd.toUInt8⟩
  | _ => none

def Ipv6Addr.display (ip : Ipv6Addr) : List Char :=
  match ip.toIpv4Mapped with
  | some ipv4 => "::ffff:".toList ++ ipv4.display
  | none =>
      let zeroes := longestZeroSpan ip.segments 0 {} {}
      if 1 < zeroes.len then
        fmtSubslice (ip.segments.take zeroes.start) ++ "::".toList ++
          fmtSubslice (ip.segments.drop (zeroes.start + zeroes.len))
      else fmtSubslice ip.segments

def SocketAddr.display : SocketAddr → List Char
  | .v4 ip port => ip.display ++ ':' :: decimal port.toNat
  | .v6 ip port scopeId =>
      '[' :: ip.display ++
        (if scopeId = 0 then [] else '%' :: decimal scopeId.toNat) ++
        ']' :: ':' :: decimal port.toNat

/-! ## Header maps -/

structure HeaderName where
  text : String
  deriving DecidableEq, Repr

structure HeaderValue where
  bytes : List UInt8
  deriving DecidableEq, Repr

/-- Visible ASCII, a blank or a tab: the bytes `HeaderValue::to_str` accepts. -/
def HeaderValue.visibleByte (b : UInt8) : Bool :=
  (32 ≤ b && b < 127) || b == 9

def HeaderValue.toStr (value : HeaderValue) : Option String :=
  if value.bytes.all visibleByte then
    some (String.ofList (value.bytes.map fun b => Char.ofNat b.toNat))
  else none

abbrev HeaderMap := List (HeaderName × HeaderValue)

namespace HeaderMap

/-- `HeaderMap::get`: the first value of a name. -/
def get (headers : HeaderMap) (name : HeaderName) : Option HeaderValue :=
  (headers.find? fun entry => entry.1 = name).map Prod.snd

def remove (headers : HeaderMap) (name : HeaderName) : HeaderMap :=
  headers.filter fun entry => entry.1 ≠ name

end HeaderMap

def HOST : HeaderName := ⟨"host"⟩

/-! ## URIs and requests -/

inductive Scheme where
  | http
  | https
  | other (name : String)
  deriving DecidableEq, Repr

def visibleChar (c : Char) : Bool := 33 ≤ c.toNat && c.toNat ≤ 126

structure Authority where
  text : List Char
  visible : text.all visibleChar = true
  deriving DecidableEq

structure PathAndQuery where
  data : String
  query : Option String
  deriving DecidableEq, Repr

structure UriParts where
  scheme : Option Scheme
  authority : Option Authority
  pathAndQuery : Option PathAndQuery
  deriving DecidableEq

structure Uri where
  parts : UriParts
  deriving DecidableEq

/-- `Uri::path`; an authority-form URI has no path. -/
def Uri.path (uri : Uri) : String :=
  match uri.parts.pathAndQuery with
  | none => ""
  | some pq => if pq.data = "" then "/" else pq.data

inductive Version where
  | http10
  | http11
  | http2
  | http3
  deriving DecidableEq, Repr

/-- What `size_hint().exact()` says, and what `collect` yields. -/
structure RequestBody where
  exactSize : Option Nat
  collected : Except String (List UInt8)

structure RequestParts where
  method : String
  uri : Uri
  version : Version
  headers : HeaderMap

structure Request where
  parts : RequestParts
  body : RequestBody

/-! ## Files and third-party functions -/

/-- `Path::is_file` and `std::fs::read`; `none` is an I/O error. -/
structure Files where
  isFile : String → Bool
  read : String → Option (List UInt8)

abbrev Der := List UInt8

inductive PemError where
  | noItemsFound
  | invalid
  deriving DecidableEq, Repr

def Files.readOr {ε : Type} (files : Files) (e : ε) (path : String) :
    Except ε (List UInt8) :=
  match files.read path with
  | some bytes => .ok bytes
  | none => .error e

/-- Every PEM item must parse; the first that does not ends the walk. -/
def collectPem {ε : Type} (e : ε) :
    List (Except PemError Der) → Except ε (List Der)
  | [] => .ok []
  | .error _ :: _ => .error e
  | .ok cert :: items => do return cert :: (← collectPem e items)

theorem bind_eq_ok {ε α β : Type} {x : Except ε α} {f : α → Except ε β}
    {b : β} : (x >>= f) = .ok b ↔ ∃ a, x = .ok a ∧ f a = .ok b := by
  cases x <;> simp [bind, Except.bind]

theorem toOption_eq_some_iff {ε α : Type} {x : Except ε α} {a : α} :
    x.toOption = some a ↔ x = .ok a := by
  cases x <;> simp [Except.toOption]

theorem then_eq_ok {ε β : Type} {x : Except ε Unit} {f : Unit → Except ε β}
    {b : β} : (x >>= f) = .ok b ↔ x = .ok () ∧ f () = .ok b := by
  rw [bind_eq_ok]
  exact ⟨fun ⟨(), hx, hf⟩ => ⟨hx, hf⟩, fun ⟨hx, hf⟩ => ⟨(), hx, hf⟩⟩

structure Regex where
  isMatch : String → Bool

/--
What the program calls of other crates: `regex::Regex::new`, `try_from` of
`http::HeaderName` and `http::HeaderValue`, `http::Uri::from_parts`,
`CertificateDer::pem_slice_iter` (the items, each parsed or not),
`PrivateKeyDer::from_pem_slice`, and whether `RootCertStore::add`,
`with_client_auth_cert` and `sign::any_supported_type` accept what they get.
-/
structure Platform where
  usizeBits : Nat
  regexNew : String → Option Regex
  headerName : String → Option HeaderName
  headerValue : String → Option HeaderValue
  fromParts : UriParts → Except String Uri
  pemCerts : List UInt8 → List (Except PemError Der)
  pemKey : List UInt8 → Except PemError Der
  addRoot : Der → Bool
  clientAuthCert : List Der → Der → Bool
  anySupportedType : Der → Bool

def tokenChar (c : Char) : Bool :=
  c.isAlphanum || "!#$%&'*+-.^_`|~".toList.contains c

/--
A platform to evaluate the model on: regexes are literal text after a caret,
header names are tokens, header values visible ASCII, a URI is assembled when
it has an authority and a path exactly if it has a scheme, or at most one of
the two, and every nonempty file is one PEM item.
-/
def Platform.concrete : Platform where
  usizeBits := 64
  regexNew s :=
    match s.toList with
    | '^' :: literal =>
        if literal.all fun c => c.isAlphanum || c == '/' then
          some ⟨fun path => literal.isPrefixOf path.toList⟩
        else none
    | _ => none
  headerName s :=
    if s ≠ "" && s.toList.all tokenChar then some ⟨toAsciiLowercase s⟩ else none
  headerValue s :=
    if s.toList.all visibleChar then
      some ⟨s.toList.map fun c => UInt8.ofNat c.toNat⟩
    else none
  fromParts parts :=
    match parts.scheme, parts.authority, parts.pathAndQuery with
    | some _, none, _ => .error "authority missing"
    | some _, some _, none => .error "path missing"
    | none, some _, some _ => .error "scheme missing"
    | _, _, _ => .ok ⟨parts⟩
  pemCerts bytes := if bytes = [] then [] else [.ok bytes]
  pemKey bytes := if bytes = [] then .error .noItemsFound else .ok bytes
  addRoot _ := true
  clientAuthCert _ _ := true
  anySupportedType _ := true

/-! ## A rendered socket address is an authority -/

private theorem visible_digitChar {n : Nat} (h : n < 16) :
    visibleChar (Nat.digitChar n) = true := by
  interval_cases n <;> rfl

private theorem visible_toDigits {base : Nat} (hlow : 1 < base)
    (hhigh : base ≤ 16) (n : Nat) :
    (Nat.toDigits base n).all visibleChar = true := by
  induction n using Nat.strong_induction_on with
  | _ n ih =>
      rw [Nat.toDigits_eq_if hlow]
      split
      · simp [visible_digitChar (show n < 16 by omega)]
      · have hdiv : n / base < n := Nat.div_lt_self (by omega) hlow
        have hmod : n % base < 16 :=
          (Nat.mod_lt n (by omega)).trans_le hhigh
        simp [List.all_append, ih _ hdiv, visible_digitChar hmod]

@[simp] theorem visible_decimal (n : Nat) :
    (decimal n).all visibleChar = true :=
  visible_toDigits (by decide) (by decide) n

@[simp] theorem visible_lowerHex (n : Nat) :
    (lowerHex n).all visibleChar = true :=
  visible_toDigits (by decide) (by decide) n

@[simp] theorem Ipv4Addr.visible_display (ip : Ipv4Addr) :
    ip.display.all visibleChar = true := by
  simp only [Ipv4Addr.display, List.all_append, List.all_cons,
    visible_decimal, Bool.true_and, Bool.and_true]
  decide

@[simp] theorem visible_fmtSubslice (chunk : List UInt16) :
    (fmtSubslice chunk).all visibleChar = true := by
  have hcolon : visibleChar ':' = true := by decide
  cases chunk with
  | nil => rfl
  | cons first tail =>
      simp only [fmtSubslice, List.all_append, visible_lowerHex,
        List.all_flatMap, List.all_cons, hcolon, Bool.true_and,
        List.all_eq_true, implies_true]

@[simp] theorem Ipv6Addr.visible_display (ip : Ipv6Addr) :
    ip.display.all visibleChar = true := by
  have hmapped : ("::ffff:".toList).all visibleChar = true := by decide
  have hgap : ("::".toList).all visibleChar = true := by decide
  unfold Ipv6Addr.display
  split
  · simp only [List.all_append, hmapped, Ipv4Addr.visible_display,
      Bool.and_self]
  · dsimp only
    split
    · simp only [List.all_append, hgap, visible_fmtSubslice, Bool.and_self]
    · exact visible_fmtSubslice _

theorem SocketAddr.visible_display (addr : SocketAddr) :
    addr.display.all visibleChar = true := by
  have hpunct : [':', '[', ']', '%'].all visibleChar = true := by decide
  simp only [List.all_cons, List.all_nil, Bool.and_true,
    Bool.and_eq_true] at hpunct
  obtain ⟨hcolon, hopen, hclose, hpercent⟩ := hpunct
  cases addr with
  | v4 ip port =>
      simp [SocketAddr.display, hcolon, -List.all_eq_true]
  | v6 ip port scopeId =>
      by_cases h : scopeId = 0 <;>
        simp [SocketAddr.display, hcolon, hopen, hclose, hpercent, h,
          -List.all_eq_true]

/-- `Authority::from_maybe_shared(addr.to_string())`, which never fails. -/
def SocketAddr.authority (addr : SocketAddr) : Authority :=
  ⟨addr.display, addr.visible_display⟩

end Conduit
