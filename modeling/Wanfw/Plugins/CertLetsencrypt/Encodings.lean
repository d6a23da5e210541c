import Wanfw.Asn1.Der
import Wanfw.Plugins.CertLetsencrypt.Crypto

/-!
# Signatures and certificate requests in bytes

What `jws.ts` and `csr.ts` do to bytes, against DER. `node:crypto` signs with two integers in DER,
of up to 33 bytes each; `derToRaw_eq`: `derToRawEcdsaSignature` makes 64 bytes of them.
`csr_round_trip`: a reader of DER finds in a certificate request what was put there.
-/

namespace Wanfw.Plugins.CertLetsencrypt

open Wanfw.Js Wanfw.Asn1

/-! ### Signatures -/

/-- `SEQUENCE { INTEGER r, INTEGER s }`. -/
def derSignature (r s : ℕ) : List UInt8 := element 0x30 (element 0x02 (integerContent r) ++ element 0x02 (integerContent s))

section Signatures

variable {k n : ℕ}

theorem stripZeros_of_length_le {bytes : List UInt8} (h : bytes.length ≤ k) : stripZeros k bytes = bytes := by
  cases bytes with
  | nil => rfl
  | cons b bytes =>
    rw [stripZeros, if_neg]
    exact fun hlong => absurd hlong.1 (Nat.not_lt.mpr h)

/-- Whichever zeros DER puts before a number, it is filled up to `k` bytes. -/
theorem padded_eq (h : n < 256 ^ k) :
    List.replicate (k - (stripZeros k (integerContent n)).length) 0 ++ stripZeros k (integerContent n) = bigEndian k n := by
  have hlength : (bytesOf n).length ≤ k := length_bytesOf_le.mpr h
  rw [bigEndian_eq h]
  unfold integerContent
  split
  · rw [stripZeros_of_length_le hlength]
  · by_cases hfull : (bytesOf n).length = k
    · rw [stripZeros, if_pos ⟨by omega, rfl⟩, stripZeros_of_length_le hlength]
    · rw [stripZeros_of_length_le (by rw [List.length_cons]; omega), List.length_cons, ← List.singleton_append,
        ← List.append_assoc, show k - (bytesOf n).length = k - ((bytesOf n).length + 1) + 1 by omega, List.replicate_succ']

theorem readInt_of {der : List UInt8} {offset : ℕ} (len : UInt8) (bytes : List UInt8) (htag : der[offset]? = some 0x02)
    (hlen : der[offset + 1]? = some len) (hbytes : (der.drop (offset + 2)).take len.toNat = bytes) :
    readInt der k offset =
      .ok (List.replicate (k - (stripZeros k bytes).length) 0 ++ stripZeros k bytes, offset + 2 + len.toNat) := by
  subst hbytes
  rw [readInt, htag, hlen]
  rfl

/-- An integer is read where it begins. -/
theorem readInt_element {content : List UInt8} (h : content.length < 128) (pre rest : List UInt8) :
    readInt (pre ++ (element 0x02 content ++ rest)) k pre.length =
      .ok (List.replicate (k - (stripZeros k content).length) 0 ++ stripZeros k content,
        pre.length + (element 0x02 content).length) := by
  have hbyte : content.length.toUInt8.toNat = content.length := toNat_toUInt8 (h.trans (by decide))
  have helement : element 0x02 content = 0x02 :: content.length.toUInt8 :: content := by
    rw [element, lengthBytes, if_pos h]
    rfl
  rw [helement, readInt_of content.length.toUInt8 content]
  · rw [hbyte, List.length_cons, List.length_cons]
    exact congrArg Except.ok (Prod.ext rfl (by dsimp only; omega))
  · rw [List.getElem?_append_right le_rfl, Nat.sub_self]
    rfl
  · rw [List.getElem?_append_right (Nat.le_add_right _ _), Nat.add_sub_cancel_left]
    rfl
  · rw [hbyte, List.drop_append, List.drop_eq_nil_of_le (Nat.le_add_right _ _), Nat.add_sub_cancel_left]
    exact List.take_left

/-- **The 64 bytes of a signature.** -/
theorem derToRaw_eq {r s : ℕ} (hr : r < 2 ^ 256) (hs : s < 2 ^ 256) :
    derToRawEcdsaSignature (derSignature r s) 32 = .ok (bigEndian 32 r ++ bigEndian 32 s) := by
  have hshort : ∀ n, n < 2 ^ 256 → (integerContent n).length < 128 ∧ (integerContent n).length ≤ 33 := by
    intro n hn
    have hbytes : (bytesOf n).length ≤ 32 := length_bytesOf_le.mpr (hn.trans_eq (by norm_num))
    have := length_integerContent_le n
    omega
  have helement : ∀ n, n < 2 ^ 256 → (element 0x02 (integerContent n)).length ≤ 35 := by
    intro n hn
    have := hshort n hn
    rw [element, lengthBytes, if_pos this.1, List.length_cons, List.length_append, List.length_singleton]
    omega
  -- the sequence is so short that one byte tells its length
  have hheader : ∃ header, header.length = 2 ∧ derSignature r s =
      header ++ (element 0x02 (integerContent r) ++ element 0x02 (integerContent s)) := by
    have hlr := helement r hr
    have hls := helement s hs
    refine ⟨[0x30, (element 0x02 (integerContent r) ++ element 0x02 (integerContent s)).length.toUInt8], rfl, ?_⟩
    rw [derSignature, element, lengthBytes, if_pos (by rw [List.length_append]; omega)]
    rfl
  obtain ⟨header, hlength, hder⟩ := hheader
  have hfirst := readInt_element (k := 32) (hshort r hr).1 header (element 0x02 (integerContent s))
  have hsecond := readInt_element (k := 32) (hshort s hs).1 (header ++ element 0x02 (integerContent r)) []
  rw [padded_eq (hr.trans_eq (by norm_num))] at hfirst
  rw [padded_eq (hs.trans_eq (by norm_num)), List.append_nil, List.append_assoc, List.length_append] at hsecond
  rw [hlength] at hfirst hsecond
  rw [derToRawEcdsaSignature, hder, hfirst]
  dsimp only [bind, Except.bind]
  rw [hsecond]
  rfl

/-- The smallest integer, and one with a zero before it. -/
theorem derToRaw_eq_short : derToRawEcdsaSignature (derSignature 1 255) 32 = .ok (bigEndian 32 1 ++ bigEndian 32 255) :=
  derToRaw_eq (by decide) (by decide)

end Signatures

/-! ### The bytes of `der.ts` -/

section Bytes

theorem or_128 {n : ℕ} (hn : n < 128) : n ||| 0x80 = 128 + n := by
  rw [Nat.or_comm]
  exact (Nat.two_pow_add_eq_or_of_lt (i := 7) hn 1).symm

theorem lengthLoop_eq {fuel n : ℕ} (hfuel : n ≤ fuel) (hn : n < 2 ^ 32) (bytes : List UInt8) :
    der.lengthLoop fuel n bytes = bytesOf n ++ bytes := by
  induction fuel generalizing n bytes with
  | zero =>
    obtain rfl : n = 0 := by omega
    rfl
  | succ fuel ih =>
    by_cases h0 : n = 0
    · subst h0
      rfl
    · rw [der.lengthLoop, if_pos (by omega), Nat.mod_eq_of_lt hn, ih (by omega) (by omega), bytesOf_of_ne_zero h0,
        List.append_assoc]
      rfl

theorem encodeLength_eq {n : ℕ} (hn : n < 2 ^ 32) : der.encodeLength n = lengthBytes n := by
  unfold der.encodeLength lengthBytes
  split
  · rfl
  · have hcount : (bytesOf n).length ≤ 4 := length_bytesOf_le.mpr (hn.trans_eq (by norm_num))
    dsimp only
    rw [lengthLoop_eq le_rfl hn, List.append_nil, Nat.or_comm, or_128 (by omega)]

theorem tlv_eq {tag : ℕ} {content : List UInt8} (h : content.length < 2 ^ 32) :
    der.tlv tag content = element tag.toUInt8 content := by
  rw [der.tlv, encodeLength_eq h, element]

theorem length_lt_tlv {tag : ℕ} {content : List UInt8} : content.length < (der.tlv tag content).length := by
  rw [der.tlv, List.length_cons, List.length_append]
  omega

theorem partLoop_eq {fuel n : ℕ} (hfuel : n ≤ fuel) (hn : n < 2 ^ 32) (chunk : List UInt8) :
    der.partLoop fuel n chunk = arcHead n ++ chunk := by
  induction fuel generalizing n chunk with
  | zero =>
    obtain rfl : n = 0 := by omega
    rfl
  | succ fuel ih =>
    by_cases h0 : n = 0
    · subst h0
      rfl
    · have hlow : n % 2 ^ 7 < 128 := Nat.mod_lt _ (by decide)
      rw [der.partLoop, if_pos (by omega), Nat.mod_eq_of_lt hn, ih (by omega) (by omega), or_128 hlow, arcHead_of_ne_zero h0,
        List.append_assoc]
      rfl

theorem oidPart_eq {n : ℕ} (hn : n < 2 ^ 32) : der.oidPart n = arcBytes n := by
  unfold der.oidPart arcBytes
  split
  · rename_i hsmall
    rw [Nat.div_eq_of_lt hsmall, Nat.mod_eq_of_lt hsmall]
    rfl
  · rw [partLoop_eq (by omega) (by omega), Nat.mod_eq_of_lt hn]
    rfl

end Bytes

/-! ### Object identifiers -/

/-- An object identifier in writing. -/
def dotted (arcs : List ℕ) : JsString := join (arcs.map natToString) (js ".")

/-- The parts of an object identifier whose first two fit into a byte. -/
def ValidOid : List ℕ → Prop
  | a :: b :: arcs => (a ≤ 1 ∧ b < 40 ∨ a = 2 ∧ b < 48) ∧ ∀ n ∈ arcs, n < 2 ^ 31
  | _ => False

section Oids

variable {arcs : List ℕ}

/-- The contents of an object identifier. -/
def oidContent : List ℕ → List UInt8
  | a :: b :: arcs => arcBytes (a * 40 + b) ++ arcs.flatMap arcBytes
  | _ => []

theorem oid_eq (h : ValidOid arcs) : der.oid (dotted arcs) = der.tlv 0x06 (oidContent arcs) := by
  rcases arcs with _ | ⟨a, _ | ⟨b, arcs⟩⟩
  · exact h.elim
  · exact h.elim
  · have hsplit : split (dotted (a :: b :: arcs)) 46 = (a :: b :: arcs).map natToString := by
      refine List.splitOn_intercalate _ (fun s hs => ?_) (by simp)
      obtain ⟨n, -, rfl⟩ := List.mem_map.mp hs
      exact not_mem_of_digits (by decide) (isDigit_natToString n)
    have hparts : ((a :: b :: arcs).map natToString).map digitsValue = a :: b :: arcs := by
      rw [List.map_map]
      exact (List.map_congr_left fun n _ => digitsValue_natToString n).trans (List.map_id _)
    have hfirst : a * 40 + b < 128 := by
      rcases h.1 with ⟨ha, hb⟩ | ⟨rfl, hb⟩ <;> omega
    have hhead : arcBytes (a * 40 + b) = [(a * 40 + b).toUInt8] := by
      rw [arcBytes, Nat.div_eq_of_lt hfirst, Nat.mod_eq_of_lt hfirst]
      rfl
    rw [der.oid, hsplit, hparts, oidContent, hhead]
    refine congrArg (der.tlv 0x06) ?_
    rw [List.singleton_append]
    refine congrArg₂ List.cons rfl (List.flatMap_congr fun n hn => oidPart_eq ((h.2 n hn).trans (by decide)))

theorem readOid_oidContent (h : ValidOid arcs) : readOid (oidContent arcs) = some arcs := by
  rcases arcs with _ | ⟨a, _ | ⟨b, arcs⟩⟩
  · exact h.elim
  · exact h.elim
  · rw [oidContent, readOid, readArcs_arcBytes, readArcs_flatMap, Option.map_some]
    dsimp only
    rcases h.1 with ⟨ha, hb⟩ | ⟨rfl, hb⟩
    · obtain rfl | rfl : a = 0 ∨ a = 1 := by omega
      · rw [if_pos (by omega), Nat.zero_mul, Nat.zero_add]
      · rw [if_neg (by omega), if_pos (by omega), Nat.one_mul, Nat.add_sub_cancel_left]
    · rw [if_neg (by omega), if_neg (by omega), Nat.add_sub_cancel_left]

end Oids

/-! ### Certificate requests -/

/-- What a certificate request says. -/
structure Request where
  version : ℕ
  /-- The names of the subject. -/
  subject : List Der
  /-- `SubjectPublicKeyInfo`. -/
  publicKey : Der
  names : List JsString

/-- `id-ExtensionRequest`. -/
def extensionRequest : List ℕ := [1, 2, 840, 113549, 1, 9, 14]

/-- `id-ce-subjectAltName`. -/
def subjectAltName : List ℕ := [2, 5, 29, 17]

/-- What stands behind this object identifier, in the first sequence that begins with it. -/
def entry (oid : List ℕ) (entries : List Der) : Option (List Der) :=
  entries.findSome? fun x =>
    match x.items 0x30 with
    | some (id :: values) => if (id.content 0x06).bind readOid = some oid then some values else none
    | _ => none

/-- The names of a `dNSName`. -/
def readName (x : Der) : Option JsString := (x.content 0x82).map fun bytes => bytes.map UInt8.toUInt16

/-- `CertificationRequestInfo`, read strictly. -/
def readRequest (bytes : List UInt8) : Option Request := do
  let [version, subject, publicKey, attributes] ← (← Der.read bytes).items 0x30 | none
  let [extensionsSet] ← entry extensionRequest (← attributes.items 0xa0) | none
  let [extensions] ← extensionsSet.items 0x31 | none
  let [san] ← entry subjectAltName (← extensions.items 0x30) | none
  let names ← (← (← Der.read (← san.content 0x04)).items 0x30).mapM readName
  return ⟨valueOf (← version.content 0x02), ← subject.items 0x30, publicKey, names⟩

/-- The names of a certificate request. -/
def sanTree (names : List JsString) : Der :=
  .constructed 0x30 (names.map fun n => .primitive 0x82 (n.map fun u => u.toNat.toUInt8))

/-- A certificate request. -/
def requestTree (key : Der) (names : List JsString) : Der :=
  .constructed 0x30 [.primitive 0x02 [0], .constructed 0x30 [], key,
    .constructed 0xa0 [.constructed 0x30 [.primitive 0x06 (oidContent extensionRequest),
      .constructed 0x31 [.constructed 0x30 [.constructed 0x30 [.primitive 0x06 (oidContent subjectAltName),
        .primitive 0x04 (sanTree names).encode]]]]]]

section Requests

variable {key : Der} {names : List JsString}

theorem length_lt_of_mem {tag : ℕ} {x : List UInt8} {items : List (List UInt8)} (h : x ∈ items) :
    x.length < (der.tlv tag items.flatten).length := (List.sublist_flatten_of_mem h).length_le.trans_lt length_lt_tlv

/-- Elements in an element. -/
theorem tlv_constructed {tag : ℕ} {items : List (List UInt8)} (xs : List Der) (hitems : items = xs.map Der.encode)
    (h : (der.tlv tag items.flatten).length < 2 ^ 32) : der.tlv tag items.flatten = (Der.constructed tag.toUInt8 xs).encode := by
  rw [tlv_eq (length_lt_tlv.trans h), Der.encode, Der.encodeAll_eq, hitems]

theorem tlv_primitive {tag : ℕ} {content : List UInt8} (h : (der.tlv tag content).length < 2 ^ 32) :
    der.tlv tag content = (Der.primitive tag.toUInt8 content).encode := by
  rw [tlv_eq (length_lt_tlv.trans h), Der.encode]

/-- The names of a request, in bytes. -/
theorem buildSanExtensionValue_eq (hsize : (buildSanExtensionValue names).length < 2 ^ 32) :
    buildSanExtensionValue names = (sanTree names).encode := by
  have hnames : (names.map fun n => der.contextPrimitive 2 (n.map fun u => u.toNat.toUInt8)) =
      (names.map fun n => Der.primitive 0x82 (n.map fun u => u.toNat.toUInt8)).map Der.encode := by
    rw [List.map_map]
    refine List.map_congr_left fun n hn => ?_
    exact tlv_primitive ((length_lt_of_mem (List.mem_map_of_mem hn)).trans hsize)
  exact tlv_constructed _ hnames hsize

/-- The bytes of a certificate request are those of its elements. -/
theorem buildCertificationRequestInfo_eq (hsize : (buildCertificationRequestInfo key.encode names).length < 2 ^ 32) :
    buildCertificationRequestInfo key.encode names = (requestTree key names).encode := by
  have hrequest : js "1.2.840.113549.1.9.14" = dotted extensionRequest := by decide +kernel
  have hname : js "2.5.29.17" = dotted subjectAltName := by decide +kernel
  have hvalid : ValidOid extensionRequest ∧ ValidOid subjectAltName := by
    unfold extensionRequest subjectAltName ValidOid
    decide
  unfold buildCertificationRequestInfo at hsize ⊢
  dsimp only at hsize ⊢
  rw [hrequest, oid_eq hvalid.1, hname, oid_eq hvalid.2] at hsize ⊢
  -- each element is shorter than the one around it
  have hattributes := (length_lt_of_mem (List.mem_cons_of_mem _ (List.mem_cons_of_mem _ (List.mem_cons_of_mem _ List.mem_cons_self)))).trans hsize
  have hattribute := (length_lt_of_mem List.mem_cons_self).trans hattributes
  have hset := (length_lt_of_mem (List.mem_cons_of_mem _ List.mem_cons_self)).trans hattribute
  have hextensions := (length_lt_of_mem List.mem_cons_self).trans hset
  have hextension := (length_lt_of_mem List.mem_cons_self).trans hextensions
  have hvalue := (length_lt_of_mem (List.mem_cons_of_mem _ List.mem_cons_self)).trans hextension
  have hsan := buildSanExtensionValue_eq (length_lt_tlv.trans hvalue)
  have heq1 : der.octetString (buildSanExtensionValue names) = (Der.primitive 0x04 (sanTree names).encode).encode :=
    (tlv_primitive hvalue).trans (by rw [hsan]; rfl)
  have heq2 := tlv_constructed [.primitive 0x06 (oidContent subjectAltName), .primitive 0x04 (sanTree names).encode]
    (congrArg₂ (fun a b => [a, b]) (tlv_primitive ((length_lt_of_mem List.mem_cons_self).trans hextension)) heq1) hextension
  have heq3 := tlv_constructed [_] (congrArg (fun a => [a]) heq2) hextensions
  have heq4 := tlv_constructed [_] (congrArg (fun a => [a]) heq3) hset
  have heq5 := tlv_constructed [.primitive 0x06 (oidContent extensionRequest), _]
    (congrArg₂ (fun a b => [a, b]) (tlv_primitive ((length_lt_of_mem List.mem_cons_self).trans hattribute)) heq4) hattribute
  have heq6 := tlv_constructed [_] (congrArg (fun a => [a]) heq5) hattributes
  exact tlv_constructed [.primitive 0x02 [0], .constructed 0x30 [], key, _]
    (congrArg (fun a => [der.integer 0, der.sequence [], key.encode, a]) heq6) hsize

theorem allTagged_sanTree (names : List JsString) :
    Der.AllTagged (names.map fun n => .primitive 0x82 (n.map fun u => u.toNat.toUInt8)) := by
  induction names with
  | nil => trivial
  | cons n names ih => exact ⟨⟨by decide, by decide⟩, ih⟩

theorem proper_sanTree (h : (sanTree names).encode.length < 2 ^ 32) : (sanTree names).Proper :=
  Der.proper_of_length _ ⟨by decide, by decide, allTagged_sanTree names⟩ (h.trans (by norm_num))

theorem proper_requestTree (hkey : key.Proper) (h : (requestTree key names).encode.length < 2 ^ 32) :
    (requestTree key names).Proper := by
  refine Der.proper_of_length _ ?_ (h.trans (by norm_num))
  simp [requestTree, Der.Tagged, Der.AllTagged, ShortTag, isConstructed, Der.Proper.tagged key hkey]

theorem readName_ascii {n : JsString} (h : ∀ u ∈ n, u.toNat < 128) :
    readName (.primitive 0x82 (n.map fun u => u.toNat.toUInt8)) = some n := by
  rw [readName, Der.content, if_pos rfl, Option.map_some, List.map_map]
  refine congrArg some ((List.map_congr_left fun u hu => ?_).trans (List.map_id n))
  apply UInt16.toNat_inj.mp
  have hbyte := toNat_toUInt8 ((h u hu).trans (by decide))
  simpa using hbyte

theorem mapM_readName (hascii : ∀ n ∈ names, ∀ u ∈ n, u.toNat < 128) :
    (names.map fun n => Der.primitive 0x82 (n.map fun u => u.toNat.toUInt8)).mapM readName = some names := by
  induction names with
  | nil => rfl
  | cons n names ih =>
    rw [List.forall_mem_cons] at hascii
    rw [List.map_cons, List.mapM_cons, readName_ascii hascii.1, ih hascii.2]
    rfl

/-- **What was put into a request is read out of it.** -/
theorem readRequest_requestTree (hkey : key.Proper) (hascii : ∀ n ∈ names, ∀ u ∈ n, u.toNat < 128)
    (hsize : (requestTree key names).encode.length < 2 ^ 32) :
    readRequest (requestTree key names).encode = some ⟨0, [], key, names⟩ := by
  have hvalid : ValidOid extensionRequest ∧ ValidOid subjectAltName := by
    unfold extensionRequest subjectAltName ValidOid
    decide
  have hread : Der.read (requestTree key names).encode = some (requestTree key names) :=
    Der.read_iff.mpr ⟨proper_requestTree hkey hsize, rfl⟩
  have hsan : Der.read (sanTree names).encode = some (sanTree names) := by
    refine Der.read_iff.mpr ⟨proper_sanTree (lt_of_le_of_lt ?_ hsize), rfl⟩
    simp only [requestTree, Der.encode, Der.encodeAll, element, List.length_append, List.length_cons]
    omega
  unfold readRequest
  rw [hread]
  have hitems : (sanTree names).items 0x30 = some (names.map fun n => .primitive 0x82 (n.map fun u => u.toNat.toUInt8)) :=
    Der.items_constructed _ _
  simp only [requestTree, Der.items_constructed, Der.content_primitive, entry, List.findSome?_cons, if_true, Option.bind_eq_bind,
    Option.bind_some, readOid_oidContent hvalid.1, readOid_oidContent hvalid.2, hsan, hitems, mapM_readName hascii]
  rfl

end Requests

/-- **Certificate requests and object identifiers are read back**, by a reader that takes each length in one form only. -/
theorem csr_round_trip (spki : List UInt8) (key : Der) (hkey : Der.read spki = some key) (names : List JsString)
    (hascii : ∀ n ∈ names, ∀ u ∈ n, u.toNat < 128) (hsize : (buildCertificationRequestInfo spki names).length < 2 ^ 32)
    (arcs : List ℕ) (hvalid : ValidOid arcs) (hlong : (der.oid (dotted arcs)).length < 2 ^ 32) :
    readRequest (buildCertificationRequestInfo spki names) = some ⟨0, [], key, names⟩ ∧ key.encode = spki ∧
      ((Der.read (der.oid (dotted arcs))).bind (Der.content 0x06)).bind readOid = some arcs := by
  obtain ⟨hproper, rfl⟩ := Der.read_iff.mp hkey
  have hbytes := buildCertificationRequestInfo_eq hsize
  refine ⟨?_, rfl, ?_⟩
  · rw [hbytes] at hsize ⊢
    exact readRequest_requestTree hproper hascii hsize
  · rw [oid_eq hvalid] at hlong ⊢
    have hoid := tlv_primitive hlong
    have htagged : (Der.primitive (Nat.toUInt8 0x06) (oidContent arcs)).Tagged := ⟨by decide, by decide⟩
    rw [hoid] at hlong ⊢
    rw [Der.read_iff.mpr ⟨Der.proper_of_length _ htagged (hlong.trans (by norm_num)), rfl⟩]
    exact readOid_oidContent hvalid

/-- A request for a name, with an object identifier of Elliptic Curve signatures. -/
theorem csr_round_trip_name :
    readRequest (buildCertificationRequestInfo [0x30, 0] [js "wan.example"]) = some ⟨0, [], .constructed 0x30 [], [js "wan.example"]⟩ ∧
      (Der.constructed 0x30 []).encode = [0x30, 0] ∧
      ((Der.read (der.oid (dotted [1, 2, 840, 10045, 4, 3, 2]))).bind (Der.content 0x06)).bind readOid =
        some [1, 2, 840, 10045, 4, 3, 2] := by
  have hascii : ([js "wan.example"].all fun n => n.all fun u => u.toNat < 128) = true := by decide +kernel
  have hkey : Der.read [0x30, 0] = some (.constructed 0x30 []) := rfl
  have hvalid : ValidOid [1, 2, 840, 10045, 4, 3, 2] := ⟨by decide, by decide⟩
  exact csr_round_trip _ _ hkey _ (by simpa using hascii) (by decide +kernel) _ hvalid (by decide +kernel)

end Wanfw.Plugins.CertLetsencrypt
