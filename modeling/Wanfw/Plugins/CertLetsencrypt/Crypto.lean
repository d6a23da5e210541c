import Wanfw.Js.Base64
import Wanfw.Js.Values

/-!
# Signed requests and certificate requests

`plugins/cert-letsencrypt-dns01`: `jws.ts`, `der.ts` and `csr.ts`. A request to the ACME
server is a JSON object with a protected header, a payload and a signature, each as text;
the certificate request is DER. Keys, hashes and signatures are those of `node:crypto`, a
parameter.

The nonce of a request stands in its protected header. `nonce_unique`: the body of a
request carries one nonce only.
-/

namespace Wanfw.Plugins.CertLetsencrypt

open Wanfw.Js

/-- `node:crypto`. -/
structure Crypto where
  PublicKey : Type
  PrivateKey : Type
  createPublicKey : Value → Except JsError PublicKey
  createPrivateKey : Value → Except JsError PrivateKey
  /-- `x` and `y` of `export({ format: "jwk" })`; a key of another kind has none. -/
  jwk : PublicKey → Except JsError (Option JsString × Option JsString)
  /-- `export({ type: "spki", format: "der" })`. -/
  spki : PublicKey → List UInt8
  sha256 : List UInt8 → List UInt8
  /-- `createSign("SHA256").update(data).sign(key)`. -/
  sign : List UInt8 → PrivateKey → Except JsError (List UInt8)

/-- A value as a condition. -/
def isTruthy : Value → Bool
  | none | some .null => false
  | some (.bool b) => b
  | some (.num d) => d.digits != 0
  | some (.str s) => !s.isEmpty
  | some _ => true

/-! ### Signed requests -/

/-- A character, with those of a URL for `+` and `/`. -/
def urlUnit (u : UInt16) : UInt16 := if u = 43 then 45 else if u = 47 then 95 else u

/-- `base64url`. -/
def base64url (input : List UInt8) : JsString := trimPadding ((base64 input).map urlUnit)

/-- `jwkFromPublicKey`. -/
def jwkFromPublicKey (C : Crypto) (publicKey : C.PublicKey) : Except JsError (Obj Json) := do
  let (x, y) ← C.jwk publicKey
  return Value.object [(js "kty", some (.str (js "EC"))), (js "crv", some (.str (js "P-256"))), (js "x", x.map .str), (js "y", y.map .str)]

/-- `jwkThumbprint`. -/
def jwkThumbprint (C : Crypto) (publicKeyPem : Value) : Except JsError JsString := do
  let publicKey ← C.createPublicKey publicKeyPem
  let (x, y) ← C.jwk publicKey
  let undef := js "undefined"
  let canonical := js "\x7b\"crv\":\"P-256\",\"kty\":\"EC\",\"x\":\"" ++ x.getD undef ++ js "\",\"y\":\"" ++ y.getD undef ++ js "\"\x7d"
  return base64url (C.sha256 (utf8 canonical))

/-- `SignJwsOptions`. -/
structure SignJwsOptions where
  privateKeyPem : Value
  payload : Json
  url : Value
  nonce : JsString
  jwkPublicKeyPem : Value
  kid : Option JsString

/-- The bytes of an integer of a signature, in `componentLength` bytes. -/
def stripZeros (componentLength : ℕ) : List UInt8 → List UInt8
  | [] => []
  | b :: bytes => if componentLength < bytes.length + 1 ∧ b = 0 then stripZeros componentLength bytes else b :: bytes

/-- `readInt`, with the offset behind the integer. -/
def readInt (der : List UInt8) (componentLength offset : ℕ) : Except JsError (List UInt8 × ℕ) :=
  match der[offset]?, der[offset + 1]? with
  | some 2, some len =>
    let bytes := stripZeros componentLength ((der.drop (offset + 2)).take len.toNat)
    .ok (List.replicate (componentLength - bytes.length) 0 ++ bytes, offset + 2 + len.toNat)
  -- a length that is missing: no bytes, and no offset to read on from
  | some 2, none => .ok (List.replicate componentLength 0, der.length)
  | _, _ => .error (.error (js "expected INTEGER in DER ECDSA signature"))

/-- `derToRawEcdsaSignature`. -/
def derToRawEcdsaSignature (der : List UInt8) (componentLength : ℕ) : Except JsError (List UInt8) := do
  let (r, offset) ← readInt der componentLength 2
  let (s, _) ← readInt der componentLength offset
  return r ++ s

/-- The protected header. -/
def protectedHeader (C : Crypto) (options : SignJwsOptions) : Except JsError (Obj Json) :=
  let header := [(js "alg", Json.str (js "ES256")), (js "nonce", .str options.nonce)] ++ Value.object [(js "url", options.url)]
  match options.kid.filter fun kid => !kid.isEmpty with
  | some kid => .ok (header ++ [(js "kid", .str kid)])
  | none =>
    if isTruthy options.jwkPublicKeyPem then do
      let publicKey ← C.createPublicKey options.jwkPublicKeyPem
      let jwk ← jwkFromPublicKey C publicKey
      return header ++ [(js "jwk", .obj jwk)]
    else .error (.error (js "signJws requires either kid or jwkPublicKeyPem"))

/-- `signJws`: the members `protected`, `payload` and `signature`. -/
def signJws (C : Crypto) (options : SignJwsOptions) : Except JsError (Obj Json) := do
  let privateKey ← C.createPrivateKey options.privateKeyPem
  let header ← protectedHeader C options
  let protectedB64 := base64url (utf8 (stringify (.obj header)))
  let payloadB64 := if options.payload.strictEq (.str []) then [] else base64url (utf8 (stringify options.payload))
  let derSig ← C.sign (utf8 (protectedB64 ++ js "." ++ payloadB64)) privateKey
  let rawSig ← derToRawEcdsaSignature derSig 32
  return [(js "protected", .str protectedB64), (js "payload", .str payloadB64), (js "signature", .str (base64url rawSig))]

/-- The body of a signed request. -/
def IsSigned (C : Crypto) (options : SignJwsOptions) (body : JsString) : Prop :=
  ∃ jws, signJws C options = .ok jws ∧ body = stringify (.obj jws)

/-- The body of a signed request carries this nonce in its protected header. -/
def CarriesNonce (C : Crypto) (body nonce : JsString) : Prop := ∃ options, IsSigned C options body ∧ options.nonce = nonce

section Nonce

variable {C : Crypto} {options : SignJwsOptions} {body n n' : JsString} {header : Obj Json}

theorem nodup_urlUnit : (base64Alphabet.map urlUnit).Nodup := by decide +kernel

theorem base64url_eq (input : List UInt8) : base64url input = (sextets input).map (urlUnit ∘ base64Unit) := by
  unfold base64url base64
  rw [List.map_append, List.map_replicate, List.map_map]
  refine trimPadding_append (fun hmem => ?_) _
  obtain ⟨n, hn, heq⟩ := List.mem_map.mp hmem
  have hne := base64Unit_ne (sextets_lt input n hn)
  simp only [Function.comp_apply, urlUnit] at heq
  split at heq
  · exact absurd heq (by decide)
  · split at heq
    · exact absurd heq (by decide)
    · exact hne heq

/-- The text determines the bytes. -/
theorem base64url_inj {xs ys : List UInt8} (h : base64url xs = base64url ys) : xs = ys := by
  rw [base64url_eq, base64url_eq] at h
  exact map_sextets_inj nodup_urlUnit h

theorem protectedHeader_nonce (h : protectedHeader C options = .ok header) :
    header[1]? = some (js "nonce", .str options.nonce) := by
  unfold protectedHeader at h
  split at h
  · cases h
    rfl
  · split at h
    · obtain ⟨_, _, h⟩ := except_bind_ok.mp h
      obtain ⟨_, _, h⟩ := except_bind_ok.mp h
      cases h
      rfl
    · cases h

theorem signJws_protected {jws : Obj Json} (h : signJws C options = .ok jws) : ∃ header, protectedHeader C options = .ok header ∧
    jws.head? = some (js "protected", .str (base64url (utf8 (stringify (.obj header))))) := by
  obtain ⟨_, _, h⟩ := except_bind_ok.mp h
  obtain ⟨header, hheader, h⟩ := except_bind_ok.mp h
  obtain ⟨_, _, h⟩ := except_bind_ok.mp h
  obtain ⟨_, _, h⟩ := except_bind_ok.mp h
  cases h
  exact ⟨header, hheader, rfl⟩

/-- **One nonce.** A signed body carries one nonce only. -/
theorem nonce_unique (h : CarriesNonce C body n) (h' : CarriesNonce C body n') : n = n' := by
  obtain ⟨options, ⟨jws, hsign, rfl⟩, rfl⟩ := h
  obtain ⟨options', ⟨jws', hsign', hbody⟩, rfl⟩ := h'
  obtain rfl : jws = jws' := by simpa using stringify_inj hbody
  obtain ⟨header, hheader, hprotected⟩ := signJws_protected hsign
  obtain ⟨header', hheader', hprotected'⟩ := signJws_protected hsign'
  rw [hprotected] at hprotected'
  obtain rfl : header = header' := by
    have htext : base64url (utf8 (stringify (.obj header))) = base64url (utf8 (stringify (.obj header'))) := by
      simpa using hprotected'
    simpa using utf8_stringify_inj (base64url_inj htext)
  have hnonce := (protectedHeader_nonce hheader).symm.trans (protectedHeader_nonce hheader')
  simpa using hnonce

end Nonce

/-! ### DER -/

namespace der

/-- The loop of `encodeLength`, at most `fuel` times: `n & 0xff` goes before the bytes, and `n >>> 8` is taken of 32 bits. -/
def lengthLoop : ℕ → ℕ → List UInt8 → List UInt8
  | 0, _, bytes => bytes
  | fuel + 1, n, bytes => if 0 < n then lengthLoop fuel (n % 2 ^ 32 / 2 ^ 8) (n.toUInt8 :: bytes) else bytes

/-- `encodeLength`. -/
def encodeLength (len : ℕ) : List UInt8 :=
  if len < 0x80 then [len.toUInt8]
  else
    let bytes := lengthLoop len len []
    (0x80 ||| bytes.length).toUInt8 :: bytes

/-- `tlv`. -/
def tlv (tag : ℕ) (content : List UInt8) : List UInt8 := tag.toUInt8 :: (encodeLength content.length ++ content)

/-- `der.sequence`. -/
def sequence (items : List (List UInt8)) : List UInt8 := tlv 0x30 items.flatten

/-- `der.set`. -/
def set (items : List (List UInt8)) : List UInt8 := tlv 0x31 items.flatten

/-- `der.octetString`. -/
def octetString (content : List UInt8) : List UInt8 := tlv 0x04 content

/-- `der.bitString`, without unused bits. -/
def bitString (content : List UInt8) : List UInt8 := tlv 0x03 (0 :: content)

/-- `der.integer`. -/
def integer (n : ℕ) : List UInt8 := tlv 0x02 [n.toUInt8]

/-- The loop over a part of an object identifier, at most `fuel` times: `(n & 0x7f) | 0x80` goes before the bytes. -/
def partLoop : ℕ → ℕ → List UInt8 → List UInt8
  | 0, _, chunk => chunk
  | fuel + 1, n, chunk => if 0 < n then partLoop fuel (n % 2 ^ 32 / 2 ^ 7) ((n % 2 ^ 7 ||| 0x80).toUInt8 :: chunk) else chunk

/-- A part of an object identifier, seven bits a byte, the highest first. -/
def oidPart (part : ℕ) : List UInt8 :=
  if part < 0x80 then [part.toUInt8] else partLoop part (part % 2 ^ 32 / 2 ^ 7) [(part % 2 ^ 7).toUInt8]

/-- `der.oid`. -/
def oid (dotted : JsString) : List UInt8 :=
  let parts := (split dotted 46).map digitsValue
  tlv 0x06 ((parts.getD 0 0 * 40 + parts.getD 1 0).toUInt8 :: (parts.drop 2).flatMap oidPart)

/-- `der.contextPrimitive`. -/
def contextPrimitive (tagNumber : ℕ) (content : List UInt8) : List UInt8 := tlv (0x80 ||| tagNumber) content

/-- `der.contextConstructed`. -/
def contextConstructed (tagNumber : ℕ) (items : List (List UInt8)) : List UInt8 := tlv (0xa0 ||| tagNumber) items.flatten

end der

/-! ### Certificate requests -/

/-- `AccountKeyPair`, which is `CertificateKeyPair`. -/
structure KeyPair where
  publicKeyPem : JsString
  privateKeyPem : JsString
  deriving DecidableEq

/-- `buildSanExtensionValue`. -/
def buildSanExtensionValue (names : List JsString) : List UInt8 :=
  der.sequence (names.map fun n => der.contextPrimitive 2 (n.map fun u => u.toNat.toUInt8))

/-- `buildCertificationRequestInfo`. -/
def buildCertificationRequestInfo (publicKeyDer : List UInt8) (names : List JsString) : List UInt8 :=
  let version := der.integer 0
  let subject := der.sequence []
  let sanExtension := der.sequence [der.oid (js "2.5.29.17"), der.octetString (buildSanExtensionValue names)]
  let extensions := der.sequence [sanExtension]
  let extensionRequestAttribute := der.sequence [der.oid (js "1.2.840.113549.1.9.14"), der.set [extensions]]
  let attributes := der.contextConstructed 0 [extensionRequestAttribute]
  der.sequence [version, subject, publicKeyDer, attributes]

/-- The `csrDer` of `generateCsr`, for the key pair that was generated. -/
def csrFor (C : Crypto) (keyPair : KeyPair) (names : List JsString) : Except JsError (List UInt8) := do
  let publicKey ← C.createPublicKey (some (.str keyPair.publicKeyPem))
  let privateKey ← C.createPrivateKey (some (.str keyPair.privateKeyPem))
  let certificationRequestInfo := buildCertificationRequestInfo (C.spki publicKey) names
  let signatureAlgorithm := der.sequence [der.oid (js "1.2.840.10045.4.3.2")]
  let signature ← C.sign certificationRequestInfo privateKey
  return der.sequence [certificationRequestInfo, signatureAlgorithm, der.bitString signature]

example : der.oid (js "1.2.840.10045.4.3.2") = [0x06, 0x08, 0x2a, 0x86, 0x48, 0xce, 0x3d, 0x04, 0x03, 0x02] := by decide +kernel

end Wanfw.Plugins.CertLetsencrypt
